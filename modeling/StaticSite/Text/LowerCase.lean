import StaticSite.Text.Blank
import StaticSite.Text.CaseTable

/-! # Lower case

Full Unicode lower-casing. Two letters need more than the table: a dotted capital I becomes two
characters, and a capital sigma at the end of a word becomes a final sigma.
-/

namespace StaticSite

/-- Whether a number lies in one of the ranges. -/
def inRanges (ranges : List (Nat × Nat)) (n : Nat) : Bool :=
  ranges.any fun (first, last) => first ≤ n && n ≤ last

namespace Text

/-- The simple lower-case form of a character. -/
def lowerChar (c : Char) : Char :=
  if c.toNat < 128 then
    if 'A' ≤ c ∧ c ≤ 'Z' then Char.ofNat (c.toNat + 32) else c
  else
    match lowerRanges.find? fun (first, last, step, _) =>
        first ≤ c.toNat && c.toNat ≤ last && (c.toNat - first) % step == 0 with
    | some (_, _, _, distance) => Char.ofNat (c.toNat + distance).toNat
    | none => c

/-- Whether the first character that is not case-ignorable is cased. -/
def startsCased (t : Text) : Bool :=
  match t.dropWhile (fun c => inRanges caseIgnorableRanges c.toNat) with
  | [] => false
  | c :: _ => inRanges casedRanges c.toNat

/-- The lower-case form of a character between the text before it, read backwards, and the text
after it. -/
def lowerBetween (before : Text) (c : Char) (after : Text) : Text :=
  if c = 'İ' then ['i', Char.ofNat 0x307]
  else if c = 'Σ' then
    if startsCased before && !startsCased after then ['ς'] else ['σ']
  else [lowerChar c]

/-- Lower-cases the rest of a text, the part before it given backwards. -/
def lowerAfter (before : Text) : Text → Text
  | [] => []
  | c :: rest => lowerBetween before c rest ++ lowerAfter (c :: before) rest

/-- The lower-case form of a text. -/
def lower (t : Text) : Text := lowerAfter [] t

/-- An ASCII text is lower-cased letter by letter. -/
theorem lowerBetween_ascii {c : Char} (ascii : c.toNat < 128) (before after : Text) :
    lowerBetween before c after = [lowerChar c] := by
  have notI : c ≠ 'İ' := by rintro rfl; revert ascii; decide
  have notSigma : c ≠ 'Σ' := by rintro rfl; revert ascii; decide
  simp [lowerBetween, notI, notSigma]

end Text

end StaticSite
