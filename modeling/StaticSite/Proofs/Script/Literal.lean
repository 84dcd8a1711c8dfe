import Mathlib.Tactic.SplitIfs
import StaticSite.Text.Digit

/-! # String literals of scripts

A single-quoted literal as a script reads it: characters stand for their code units, a backslash
starts an escape, and a line feed or a carriage return must not stand in it. An escape is always
longer than what it stands for, so a literal has its own characters for its value only when it holds
no escape.
-/

namespace StaticSite.Script

/-- The code units of a code point in UTF-16. -/
def codeUnits (n : Nat) : List Nat :=
  if n < 0x10000 then [n] else [0xd800 + (n - 0x10000) / 0x400, 0xdc00 + (n - 0x10000) % 0x400]

/-- The code units of a text. -/
def units (t : Text) : List Nat := t.flatMap fun c => codeUnits c.toNat

/-- Whether a character ends a line of a script. -/
def isLineTerminator (c : Char) : Bool :=
  c == '\n' || c == '\r' || c.toNat == 0x2028 || c.toNat == 0x2029

/-- The characters that an escape of one letter stands for. -/
def letterEscapes : List (Char × Nat) :=
  [('b', 8), ('t', 9), ('n', 10), ('v', 11), ('f', 12), ('r', 13)]

/-- Whether a character is an octal digit. -/
def isOctalDigit (c : Char) : Bool := '0' ≤ c && c ≤ '7'

/-- A number of exactly so many hexadecimal digits. -/
def hexNumber? (width : Nat) (t : Text) : Option Nat :=
  if (t.take width).length = width ∧ (t.take width).all isHexDigit then
    some (Text.hexadecimal (t.take width))
  else none

/-- The code units of an escape by code point and its length, from the letter on: four digits, or
digits in braces. -/
def unicodeEscape? (rest : Text) : Option (List Nat × Nat) :=
  let digits := (rest.drop 1).takeWhile isHexDigit
  if rest.head? = some '\x7b' ∧ digits ≠ [] ∧
      ((rest.drop 1).drop digits.length).head? = some '\x7d' ∧
      Text.hexadecimal digits ≤ 0x10ffff then
    some (codeUnits (Text.hexadecimal digits), digits.length + 3)
  else (hexNumber? 4 rest).map fun n => ([n], 5)

/-- The digits of an octal escape: at most three, and at most two when three would be too much. -/
def octalDigits (c : Char) (rest : Text) : Text :=
  ((c :: rest).takeWhile isOctalDigit).take (if c ≤ '3' then 3 else 2)

/-- The length of a line end that a carriage return begins. -/
def lineEndLength (rest : Text) : Nat := if rest.head? = some '\n' then 2 else 1

/-- The code units that an escape stands for and the number of its characters, both of what follows
the backslash. -/
def escape? : Text → Option (List Nat × Nat)
  | [] => none
  | c :: rest =>
      if c = '\r' then some ([], lineEndLength rest)
      else if isLineTerminator c then some ([], 1)
      else if c = 'x' then (hexNumber? 2 rest).map fun n => ([n], 3)
      else if c = 'u' then unicodeEscape? rest
      else if isOctalDigit c then
        some ([ofDigits 8 ((octalDigits c rest).filterMap digit?)], (octalDigits c rest).length)
      else
        match letterEscapes.lookup c with
        | some n => some ([n], 1)
        | none => some (codeUnits c.toNat, 1)

/-- Reads a literal up to its closing quote, after so many characters that belong to an escape. -/
def literalFrom : Nat → Text → Option (List Nat × Text)
  | _, [] => none
  | skip + 1, _ :: rest => literalFrom skip rest
  | 0, c :: rest =>
      if c = '\'' then some ([], rest)
      else if c = '\\' then
        (escape? rest).bind fun (own, length) =>
          (literalFrom length rest).map fun (later, behind) => (own ++ later, behind)
      else if c = '\n' ∨ c = '\r' then none
      else (literalFrom 0 rest).map fun (later, behind) => (codeUnits c.toNat ++ later, behind)

/-- Reads a single-quoted literal: its value, and the text behind it. -/
def literal? : Text → Option (List Nat × Text)
  | '\'' :: rest => literalFrom 0 rest
  | _ => none

example : literal? "'a\\x41\\u\x7b1F600\x7d\\\nb\\0\\'c');" =
    some ([0x61, 0x41, 0xd83d, 0xde00, 0x62, 0, 0x27, 0x63], ");".toList) := by
  decide +kernel

/-- Whether a character stands for itself in a single-quoted literal. -/
def isOrdinary (c : Char) : Bool := c != '\'' && c != '\\' && c != '\n' && c != '\r'

theorem units_cons (c : Char) (t : Text) : units (c :: t) = codeUnits c.toNat ++ units t := rfl

theorem units_append (s t : Text) : units (s ++ t) = units s ++ units t := List.flatMap_append

/-- Every character has one or two code units. -/
theorem length_codeUnits (n : Nat) : 1 ≤ (codeUnits n).length ∧ (codeUnits n).length ≤ 2 := by
  unfold codeUnits
  split <;> simp

theorem length_le_units (t : Text) : t.length ≤ (units t).length := by
  induction t with
  | nil => exact Nat.le_refl _
  | cons c rest ih =>
    have own := (length_codeUnits c.toNat).1
    rw [units_cons, List.length_append, List.length_cons]
    omega

theorem length_unicodeEscape {rest : Text} {own : List Nat} {length : Nat}
    (read : unicodeEscape? rest = some (own, length)) : own.length ≤ length := by
  unfold unicodeEscape? at read
  dsimp only at read
  split at read
  · obtain ⟨rfl, rfl⟩ := Prod.mk.inj (Option.some.inj read)
    have two := (length_codeUnits (Text.hexadecimal ((rest.drop 1).takeWhile isHexDigit))).2
    omega
  · obtain ⟨n, -, same⟩ := Option.map_eq_some_iff.mp read
    obtain ⟨rfl, rfl⟩ := Prod.mk.inj same
    simp

/-- An octal escape has a digit. -/
theorem octalDigits_pos {c : Char} (octal : isOctalDigit c = true) (rest : Text) :
    1 ≤ (octalDigits c rest).length := by
  unfold octalDigits
  rw [List.takeWhile_cons_of_pos octal]
  split <;> simp

/-- An escape stands for no more code units than it has characters, or for its only character. -/
theorem escape_short {rest : Text} {own : List Nat} {length : Nat}
    (read : escape? rest = some (own, length)) :
    own.length ≤ length ∨ own = units (rest.take length) := by
  cases rest with
  | nil => cases read
  | cons c more =>
    rw [escape?] at read
    split_ifs at read with _ _ _ _ octal
    · obtain ⟨rfl, rfl⟩ := Prod.mk.inj (Option.some.inj read)
      exact .inl (Nat.zero_le _)
    · obtain ⟨rfl, rfl⟩ := Prod.mk.inj (Option.some.inj read)
      exact .inl (Nat.zero_le _)
    · obtain ⟨n, -, same⟩ := Option.map_eq_some_iff.mp read
      obtain ⟨rfl, rfl⟩ := Prod.mk.inj same
      exact .inl (by simp)
    · exact .inl (length_unicodeEscape read)
    · obtain ⟨rfl, rfl⟩ := Prod.mk.inj (Option.some.inj read)
      exact .inl (octalDigits_pos octal more)
    · split at read
      · obtain ⟨rfl, rfl⟩ := Prod.mk.inj (Option.some.inj read)
        exact .inl (Nat.le_refl 1)
      · obtain ⟨rfl, rfl⟩ := Prod.mk.inj (Option.some.inj read)
        exact .inr (by simp [units])

/-- An escape with something behind it stands for no more code units than its characters have. -/
theorem escape_bound {rest : Text} {own : List Nat} {length : Nat}
    (read : escape? rest = some (own, length)) (more : rest.drop length ≠ []) :
    own.length ≤ (units (rest.take length)).length := by
  rcases escape_short read with less | same
  · have inside : length ≤ rest.length :=
      Nat.le_of_not_lt fun beyond => more (List.drop_eq_nil_of_le (by omega))
    have chars := length_le_units (rest.take length)
    rw [List.length_take_of_le inside] at chars
    omega
  · exact same ▸ Nat.le_refl _

/-- Ordinary characters up to a quote are the value of a literal. -/
theorem literalFrom_ordinary {t : Text} (ordinary : ∀ c ∈ t, isOrdinary c = true) (behind : Text) :
    literalFrom 0 (t ++ '\'' :: behind) = some (units t, behind) := by
  induction t with
  | nil => rfl
  | cons c rest ih =>
    obtain ⟨own, others⟩ := List.forall_mem_cons.mp ordinary
    simp only [isOrdinary, Bool.and_eq_true, bne_iff_ne] at own
    obtain ⟨⟨⟨notQuote, notBackslash⟩, notFeed⟩, notReturn⟩ := own
    rw [List.cons_append, literalFrom, if_neg notQuote, if_neg notBackslash,
      if_neg (not_or.mpr ⟨notFeed, notReturn⟩), ih others]
    rfl

/-- What is read as a literal is no shorter than its value, and of the same length only when every
character stands for itself. -/
theorem literalFrom_sound {skip : Nat} {t : Text} {value : List Nat} {behind : Text}
    (read : literalFrom skip t = some (value, behind)) :
    ∃ body, t.drop skip = body ++ '\'' :: behind ∧ value.length ≤ (units body).length ∧
      (value.length = (units body).length → ∀ c ∈ body, isOrdinary c = true) := by
  induction t generalizing skip value with
  | nil => cases skip <;> cases read
  | cons c rest ih =>
    cases skip with
    | succ skip => exact ih read
    | zero =>
      rw [literalFrom] at read
      split_ifs at read with quote backslash ended
      · obtain ⟨rfl, rfl⟩ := Prod.mk.inj (Option.some.inj read)
        exact ⟨[], by simp [quote], Nat.le_refl _, by simp⟩
      · obtain ⟨⟨own, length⟩, escaped, continued⟩ := Option.bind_eq_some_iff.mp read
        obtain ⟨⟨later, rest'⟩, found, same⟩ := Option.map_eq_some_iff.mp continued
        obtain ⟨rfl, rfl⟩ := Prod.mk.inj same
        obtain ⟨body, split, short, -⟩ := ih found
        have bound := escape_bound escaped (by rw [split]; simp)
        have backslashUnits : (codeUnits c.toNat).length = 1 := backslash ▸ rfl
        refine ⟨c :: rest.take length ++ body, ?_, ?_, fun equal => ?_⟩
        · rw [List.append_assoc, ← split, List.cons_append, List.take_append_drop]
          rfl
        · rw [units_append, units_cons]
          simp only [List.length_append]
          omega
        · rw [units_append, units_cons] at equal
          simp only [List.length_append] at equal
          omega
      · obtain ⟨⟨later, rest'⟩, found, same⟩ := Option.map_eq_some_iff.mp read
        obtain ⟨rfl, rfl⟩ := Prod.mk.inj same
        obtain ⟨body, split, short, ordinary⟩ := ih found
        refine ⟨c :: body, congrArg (c :: ·) split, ?_, fun equal => ?_⟩
        · rw [units_cons, List.length_append, List.length_append]
          omega
        · rw [units_cons, List.length_append, List.length_append] at equal
          refine List.forall_mem_cons.mpr ⟨?_, ordinary (by omega)⟩
          simpa [isOrdinary, quote, backslash] using ended

/-- A text in single quotes is a literal with that text for its value exactly when it holds no
quote, no backslash, no line feed and no carriage return. -/
theorem literal?_eq_iff (t behind : Text) :
    literal? ('\'' :: t ++ '\'' :: behind) = some (units t, behind) ↔
      ∀ c ∈ t, isOrdinary c = true := by
  constructor
  · intro read
    obtain ⟨body, split, -, ordinary⟩ := literalFrom_sound read
    obtain rfl : t = body := List.append_cancel_right split
    exact ordinary rfl
  · intro ordinary
    exact literalFrom_ordinary ordinary behind

end StaticSite.Script
