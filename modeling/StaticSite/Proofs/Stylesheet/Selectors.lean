import StaticSite.Proofs.Stylesheet.Statement
import StaticSite.Stylesheet.Layout

/-! # Selector lists as they are written

A prelude is cut into pieces at its commas, and the pieces are written with blanks behind the
commas, on one line or one piece a line. Either way it is read back as the same prelude, and
cutting that one gives the same selectors.
-/

namespace StaticSite.Stylesheet

/-- A prelude as it is read back from what is written for it. -/
def tidiedPrelude (t : Text) : Text :=
  if isAtRule t then t else Text.trim (Text.joinWith ", " (selectors t))

/-! ## Pieces -/

/-- The comma or the bracket that a lexeme is. -/
def Lexeme.delimiter? : Lexeme → Option Char
  | .char c => if c ∈ [',', '(', '[', ')', ']'] then some c else none
  | _ => none

/-- The commas and brackets of lexemes. -/
def delimiters (ls : List Lexeme) : Text := ls.filterMap Lexeme.delimiter?

/-- The number of open brackets behind a comma or a bracket. -/
def bracketStep (depth : Nat) (c : Char) : Nat :=
  if c = '(' ∨ c = '[' then depth + 1 else if c = ')' ∨ c = ']' then depth - 1 else depth

/-- The number of open brackets behind commas and brackets. -/
def bracketsAfter (depth : Nat) (ds : Text) : Nat := ds.foldl bracketStep depth

/-- Commas and brackets that do not cut a selector list. -/
def Uncut (depth : Nat) : Text → Prop
  | [] => True
  | d :: rest => ¬ (d = ',' ∧ depth = 0) ∧ Uncut (bracketStep depth d) rest

/-- Commas and brackets of the pieces between which a selector list is cut. -/
def Pieces (depth : Nat) : List Text → Prop
  | [] => False
  | [last] => Uncut depth last
  | ds :: rest => Uncut depth ds ∧ bracketsAfter depth ds = 0 ∧ Pieces 0 rest

/-- Puts separating lexemes between pieces. -/
def joined (separator : List Lexeme) : List (List Lexeme) → List Lexeme
  | [] => []
  | [last] => last
  | p :: rest => p ++ separator ++ joined separator rest

theorem Lexeme.delimiter?_of_isBlank {l : Lexeme} (blank : l.isBlank = true) :
    l.delimiter? = none := by
  obtain ⟨c, rfl, isBlank⟩ := eq_char_of_isBlank blank
  simp only [delimiter?, ite_eq_right_iff, reduceCtorEq, imp_false]
  intro delimiter
  simp only [List.mem_cons, List.not_mem_nil, or_false] at delimiter
  rcases delimiter with rfl | rfl | rfl | rfl | rfl <;> exact absurd isBlank (by decide)

theorem joined_cons (separator p q : List Lexeme) (rest : List (List Lexeme)) :
    joined separator (p :: q :: rest) = p ++ separator ++ joined separator (q :: rest) := rfl

theorem flatMap_text_joined (separator : List Lexeme) (ps : List (List Lexeme)) :
    (joined separator ps).flatMap Lexeme.text =
      Text.joinWith (separator.flatMap Lexeme.text) (ps.map fun p => p.flatMap Lexeme.text) := by
  fun_induction joined separator ps with
  | case1 => rfl
  | case2 last => rfl
  | case3 p rest some ih =>
    cases rest with
    | nil => exact absurd rfl some
    | cons q more => simp [Text.joinWith, ih]

/-- Lexemes that do not cut a list are part of the selector before them. -/
theorem partsFrom_append {depth : Nat} {p : List Lexeme} (uncut : Uncut depth (delimiters p))
    (seen : Text) (rest : List Lexeme) :
    partsFrom seen depth (p ++ rest) =
      partsFrom ((p.flatMap Lexeme.text).reverse ++ seen) (bracketsAfter depth (delimiters p))
        rest := by
  induction p generalizing depth seen with
  | nil => rfl
  | cons l more ih =>
    cases l with
    | char c =>
      by_cases delimiter : c ∈ [',', '(', '[', ')', ']']
      · simp only [delimiters, List.filterMap_cons, Lexeme.delimiter?, if_pos delimiter] at uncut ⊢
        obtain ⟨first, others⟩ := uncut
        rw [List.cons_append, partsFrom, if_neg first]
        simp only [bracketsAfter, List.foldl_cons, bracketStep] at others ⊢
        split_ifs at others ⊢ <;> simp [ih others, Lexeme.text, bracketsAfter, delimiters]
      · simp only [delimiters, List.filterMap_cons, Lexeme.delimiter?, if_neg delimiter] at uncut ⊢
        simp only [List.mem_cons, List.not_mem_nil, or_false, not_or] at delimiter
        rw [List.cons_append, partsFrom]
        simp [delimiter, ih uncut, Lexeme.text, delimiters]
    | _ =>
      rw [List.cons_append, partsFrom, ih uncut, List.flatMap_cons, List.reverse_append,
        List.append_assoc]
      · rfl
      · intro c char
        cases char

theorem partsFrom_joined {depth : Nat} {p : List Lexeme} {ps : List (List Lexeme)}
    (pieces : Pieces depth ((p :: ps).map delimiters)) (seen : Text) :
    partsFrom seen depth (joined [.char ','] (p :: ps)) =
      (seen.reverse ++ p.flatMap Lexeme.text) :: ps.map fun q => q.flatMap Lexeme.text := by
  induction ps generalizing depth p seen with
  | nil =>
    have read := partsFrom_append pieces seen []
    rw [List.append_nil] at read
    simp [joined, read, partsFrom]
  | cons q rest ih =>
    obtain ⟨uncut, closed, others⟩ := pieces
    have read := partsFrom_append uncut seen (.char ',' :: joined [.char ','] (q :: rest))
    rw [joined, List.append_assoc, List.singleton_append, read, closed, partsFrom, if_pos ⟨rfl, rfl⟩,
      ih others]
    · simp
    · simp

theorem uncut_cons {depth : Nat} {l : Lexeme} {p : List Lexeme} :
    Uncut depth (delimiters (l :: p)) ↔
      Uncut depth (delimiters [l]) ∧ Uncut (bracketsAfter depth (delimiters [l])) (delimiters p) := by
  cases delimiter : l.delimiter? <;> simp [delimiters, delimiter, Uncut, bracketsAfter]

theorem bracketsAfter_cons (depth : Nat) (l : Lexeme) (p : List Lexeme) :
    bracketsAfter depth (delimiters (l :: p)) =
      bracketsAfter (bracketsAfter depth (delimiters [l])) (delimiters p) := by
  cases delimiter : l.delimiter? <;> simp [delimiters, delimiter, bracketsAfter]

theorem uncut_singleton {depth : Nat} {l : Lexeme} (part : ¬ (l = .char ',' ∧ depth = 0)) :
    Uncut depth (delimiters [l]) := by
  cases delimiter : l.delimiter? with
  | none => simp [delimiters, delimiter, Uncut]
  | some d =>
    simp only [delimiters, List.filterMap_cons, delimiter, Uncut, List.filterMap_nil, and_true]
    rintro ⟨rfl, outermost⟩
    refine part ⟨?_, outermost⟩
    cases l <;> simp_all [Lexeme.delimiter?]

/-- Lexemes are cut into pieces. -/
theorem exists_pieces (depth : Nat) (ls : List Lexeme) :
    ∃ p ps, Pieces depth ((p :: ps).map delimiters) ∧ ls = joined [.char ','] (p :: ps) := by
  induction ls generalizing depth with
  | nil => exact ⟨[], [], trivial, rfl⟩
  | cons l rest ih =>
    by_cases cuts : l = .char ',' ∧ depth = 0
    · obtain ⟨rfl, rfl⟩ := cuts
      obtain ⟨p, ps, pieces, rfl⟩ := ih 0
      exact ⟨[], p :: ps, ⟨trivial, rfl, pieces⟩, rfl⟩
    · have first := uncut_singleton cuts
      obtain ⟨p, ps, pieces, rfl⟩ := ih (bracketsAfter depth (delimiters [l]))
      cases ps with
      | nil => exact ⟨l :: p, [], uncut_cons.mpr ⟨first, pieces⟩, rfl⟩
      | cons q more =>
        obtain ⟨uncut, closed, others⟩ := pieces
        refine ⟨l :: p, q :: more, ⟨uncut_cons.mpr ⟨first, uncut⟩, ?_, others⟩, rfl⟩
        rw [bracketsAfter_cons, closed]

/-! ## Blanks -/

theorem delimiters_of_blanks {bs : List Lexeme} (blanks : ∀ b ∈ bs, b.isBlank = true) :
    delimiters bs = [] := filterMap_of_blanks (fun _ => Lexeme.delimiter?_of_isBlank) blanks

@[simp] theorem delimiters_trimmed (ls : List Lexeme) : delimiters (trimmed ls) = delimiters ls :=
  filterMap_trimmed (fun _ => Lexeme.delimiter?_of_isBlank) ls

@[simp] theorem delimiters_space_cons (ls : List Lexeme) :
    delimiters (.char ' ' :: ls) = delimiters ls := rfl

/-- Blanks behind a selector list are trimmed with its last selector. -/
theorem trim_partsFrom_append (bs : List Lexeme) (blanks : ∀ b ∈ bs, b.isBlank = true) (seen : Text)
    (depth : Nat) (ls : List Lexeme) :
    (partsFrom seen depth (ls ++ bs)).map Text.trim = (partsFrom seen depth ls).map Text.trim := by
  fun_induction partsFrom seen depth ls with
  | case1 seen depth =>
    have uncut : Uncut depth (delimiters bs) := by
      rw [delimiters_of_blanks blanks]
      trivial
    have read := partsFrom_append uncut seen []
    have trimmed := Text.trim_append_blanks (isBlank_of_mem_text blanks) seen.reverse
    rw [List.append_nil] at read
    rw [List.nil_append, read, partsFrom]
    simpa using trimmed
  | case2 seen depth c rest comma ih => simp [partsFrom, comma, ih]
  | case3 seen depth c rest comma opens ih => simp [partsFrom, comma, opens, ih]
  | case4 seen depth c rest comma opens closes ih => simp [partsFrom, comma, opens, closes, ih]
  | case5 seen depth c rest comma opens closes ih => simp [partsFrom, comma, opens, closes, ih]
  | case6 seen depth l rest noChar ih =>
    rw [List.cons_append, partsFrom, ih]
    exact noChar

/-- A space behind each comma goes with the selector behind it. -/
theorem joined_space (p : List Lexeme) (ps : List (List Lexeme)) :
    joined [.char ',', .char ' '] (p :: ps) =
      joined [.char ','] (p :: ps.map (.char ' ' :: ·)) := by
  induction ps generalizing p with
  | nil => rfl
  | cons q rest ih =>
    rw [joined_cons, ih q, List.map_cons, joined_cons]
    cases rest <;> simp [joined]

/-- A run of blanks behind each comma counts as one space. -/
theorem squeezed_joined {bs : List Lexeme} (blanks : ∀ b ∈ bs, b.isBlank = true) (some : bs ≠ [])
    (after : Bool) (ps : List (List Lexeme)) :
    squeezed after (joined (.char ',' :: bs) ps) =
      squeezed after (joined [.char ',', .char ' '] ps) := by
  induction ps generalizing after with
  | nil => rfl
  | cons p rest ih =>
    cases rest with
    | nil => rfl
    | cons q more =>
      have comma : (Lexeme.char ',').isBlank = false := rfl
      have run := squeezed_blanks blanks some false (joined (.char ',' :: bs) (q :: more))
      rw [joined_cons, joined_cons, List.append_assoc, List.append_assoc, squeezed_append after p,
        squeezed_append after p]
      simp [squeezed, comma, run, ih]

/-! ## Joined pieces -/

theorem marks_joined {separator : List Lexeme} (unmarked : marks separator = [])
    (ps : List (List Lexeme)) : marks (joined separator ps) = ps.flatMap marks := by
  fun_induction joined separator ps with
  | case1 => rfl
  | case2 last => simp
  | case3 p rest some ih => simp [marks_append, unmarked, ih]

theorem head?_joined (separator p : List Lexeme) (c : Lexeme) (ps : List (List Lexeme)) :
    (joined (c :: separator) (p :: ps)).head? =
      p.head?.or (if ps.isEmpty then none else some c) := by
  cases ps with
  | nil => cases p <;> rfl
  | cons q rest => cases p <;> rfl

theorem mem_infix_joined {separator p : List Lexeme} {ps : List (List Lexeme)} (member : p ∈ ps) :
    p <:+: joined separator ps := by
  fun_induction joined separator ps with
  | case1 => simp at member
  | case2 last =>
    obtain rfl : p = last := by simpa using member
    exact List.infix_rfl
  | case3 q rest some ih =>
    rcases List.mem_cons.mp member with rfl | later
    · exact (List.prefix_append _ _).isInfix.trans (List.prefix_append _ _).isInfix
    · exact (ih later).trans (List.suffix_append _ _).isInfix

/-- Blanks in front of lexemes are read back with them. -/
theorem lexed_blanks_append {bs ls : List Lexeme} (blanks : ∀ b ∈ bs, b.isBlank = true)
    (lexed : Lexed ls) : Lexed (bs ++ ls) := by
  induction bs with
  | nil => exact lexed
  | cons b rest ih =>
    obtain ⟨c, rfl, blank⟩ := Lexeme.eq_char_of_isBlank (blanks b List.mem_cons_self)
    refine lexed_cons.mpr ⟨?_, ?_, ih fun d member => blanks d (List.mem_cons_of_mem _ member)⟩
    · by_contra quote
      have visible := isBlank_of_isQuote (c := c) (by simpa [Lexeme.Whole] using quote)
      simp [blank] at visible
    · rintro m - ⟨slash, -⟩
      obtain rfl : c = '/' := by simpa using slash
      exact absurd blank (by decide)

theorem lexed_joined {bs : List Lexeme} (blanks : ∀ b ∈ bs, b.isBlank = true)
    {ps : List (List Lexeme)} (lexed : ∀ p ∈ ps, Lexed p) :
    Lexed (joined (.char ',' :: bs) ps) := by
  induction ps with
  | nil => exact ⟨by simp [joined], .nil⟩
  | cons p rest ih =>
    have first := lexed p List.mem_cons_self
    cases rest with
    | nil => exact first
    | cons q more =>
      have others := ih fun r member => lexed r (List.mem_cons_of_mem _ member)
      rw [joined_cons, List.append_assoc, List.cons_append]
      refine lexed_append_of_head? first (lexed_cons.mpr ⟨rfl, ?_, ?_⟩) (by simp)
      · rintro m - ⟨comma, -⟩
        exact absurd comma (by decide)
      · exact lexed_blanks_append blanks others

/-- Trimmed pieces with a comma and a space between them have no other blanks than single spaces. -/
theorem spaced_joined {ps : List (List Lexeme)} (spaced : ∀ p ∈ ps, Spaced p) :
    Spaced (joined [.char ',', .char ' '] (ps.map trimmed)) ∧
      ∀ l ∈ (joined [.char ',', .char ' '] (ps.map trimmed)).head?, l.isBlank = false := by
  induction ps with
  | nil => exact ⟨⟨by simp [joined], .nil⟩, by simp [joined]⟩
  | cons p rest ih =>
    have first := (spaced p List.mem_cons_self).within (isInfix_trimmed p)
    obtain ⟨others, visible⟩ := ih fun q member => spaced q (List.mem_cons_of_mem _ member)
    refine ⟨?_, ?_⟩
    · cases rest with
      | nil => exact first
      | cons q more =>
        rw [List.map_cons, List.map_cons, joined_cons, List.append_assoc]
        refine spaced_append first (spaced_cons.mpr ⟨fun blank => absurd blank (by decide),
          fun m _ blank => absurd blank (by decide), spaced_cons.mpr ⟨fun _ => rfl,
          fun m head _ => visible m head, others⟩⟩) ?_
        rintro l - m head ⟨-, blank⟩
        obtain rfl : .char ',' = m := by simpa using head
        exact absurd blank (by decide)
    · rw [List.map_cons, head?_joined]
      intro l head
      rcases Option.or_eq_some_iff.mp head with inner | ⟨-, comma⟩
      · exact head?_trimmed p l inner
      · split at comma
        · simp at comma
        · obtain rfl : .char ',' = l := by simpa using comma
          rfl

/-! ## Preludes -/

section Joined

variable {ps : List (List Lexeme)} (lexed : ∀ p ∈ ps, Lexed p)
include lexed

theorem lexed_joined_trimmed {bs : List Lexeme} (blanks : ∀ b ∈ bs, b.isBlank = true) :
    Lexed (joined (.char ',' :: bs) (ps.map trimmed)) := by
  refine lexed_joined blanks fun q member => ?_
  obtain ⟨p, inside, rfl⟩ := List.mem_map.mp member
  exact (lexed p inside).within (isInfix_trimmed p)

/-- Whatever blanks stand behind the commas, the pieces are read as the same prelude. -/
theorem phrase_joined (spaced : ∀ p ∈ ps, Spaced p) {bs : List Lexeme}
    (blanks : ∀ b ∈ bs, b.isBlank = true) (some : bs ≠ []) :
    phrase (joined (.char ',' :: bs) (ps.map trimmed)) =
      Text.trim (Text.joinWith ", " (ps.map fun p => (trimmed p).flatMap Lexeme.text)) := by
  have single : Lexed (joined [.char ',', .char ' '] (ps.map trimmed)) :=
    lexed_joined_trimmed lexed (by simp)
  rw [phrase_eq (lexed_joined_trimmed lexed blanks), tightened, squeezed_joined blanks some,
    squeezed_of_spaced (spaced_joined spaced).1 (fun inside => by cases inside),
    ← trim_flatMap_text single.1, flatMap_text_joined, List.map_map]
  rfl

/-- The prelude that pieces are read back as has those pieces for its selectors. -/
theorem selectors_joined (spaced : ∀ p ∈ ps, Spaced p) (pieces : Pieces 0 (ps.map delimiters)) :
    selectors (Text.trim (Text.joinWith ", " (ps.map fun p => (trimmed p).flatMap Lexeme.text))) =
      ps.map fun p => (trimmed p).flatMap Lexeme.text := by
  have whole : Lexed (joined [.char ',', .char ' '] (ps.map trimmed)) :=
    lexed_joined_trimmed lexed (by simp)
  have visible := (spaced_joined spaced).2
  have text : Text.trim (Text.joinWith ", " (ps.map fun p => (trimmed p).flatMap Lexeme.text)) =
      (trimmed (joined [.char ',', .char ' '] (ps.map trimmed))).flatMap Lexeme.text := by
    rw [← trim_flatMap_text whole.1, flatMap_text_joined, List.map_map]
    rfl
  have kept := trim_partsFrom_append
    ((joined [.char ',', .char ' '] (ps.map trimmed)).rtakeWhile Lexeme.isBlank)
    (fun b member => List.mem_rtakeWhile_imp member) [] 0
    (trimmed (joined [.char ',', .char ' '] (ps.map trimmed)))
  have front : trimmed (joined [.char ',', .char ' '] (ps.map trimmed)) =
      (joined [.char ',', .char ' '] (ps.map trimmed)).rdropWhile Lexeme.isBlank := by
    rw [trimmed, dropWhile_of_head? visible]
  rw [front, List.rdropWhile_append_rtakeWhile, ← front] at kept
  rw [selectors, text, lexemes_flatMap_text (whole.within (isInfix_trimmed _)), ← kept]
  cases ps with
  | nil => exact pieces.elim
  | cons p rest =>
    have same : ((trimmed p) :: (rest.map trimmed).map (.char ' ' :: ·)).map delimiters =
        (p :: rest).map delimiters := by
      simp [Function.comp_def]
    have padded (q : List Lexeme) (member : q ∈ p :: rest) (bs : Text)
        (blanks : ∀ b ∈ bs, isBlank b = true) :
        Text.trim (bs ++ (trimmed q).flatMap Lexeme.text) = (trimmed q).flatMap Lexeme.text := by
      rw [← trim_flatMap_text (lexed q member).1, Text.trim_blanks_append blanks, Text.trim_trim]
    rw [List.map_cons, joined_space, partsFrom_joined (by rwa [same])]
    simp only [List.map_cons, List.map_map, List.reverse_nil]
    rw [padded p List.mem_cons_self [] (by simp)]
    refine congrArg _ (List.map_congr_left fun q member => ?_)
    exact padded q (List.mem_cons_of_mem _ member) [' '] (by decide)

end Joined

/-- Trimming the pieces of a prelude keeps the lexeme at its start. -/
theorem head?_joined_trimmed {ps : List (List Lexeme)} (pieces : ps ≠ [])
    (head : ∀ l ∈ (joined [.char ','] ps).head?, l.isBlank = false) :
    (joined [.char ',', .char ' '] (ps.map trimmed)).head? = (joined [.char ','] ps).head? := by
  cases ps with
  | nil => exact absurd rfl pieces
  | cons p rest =>
    have front : ∀ l ∈ p.head?, l.isBlank = false := by
      intro l first
      have start : p <+: joined [.char ','] (p :: rest) := by
        cases rest with
        | nil => exact List.prefix_rfl
        | cons q more => exact ⟨_, (List.append_assoc _ _ _).symm⟩
      exact head l (mem_head?_of_start start l first)
    rw [List.map_cons, head?_joined, head?_joined, head?_trimmed_of_head? front, List.isEmpty_map]

/-! ## Lines that open a block -/

/-- Lines with a newline behind each. -/
def written (lines : List Text) : Text := lines.flatMap (· ++ ['\n'])

theorem written_cons (line : Text) (rest : List Text) :
    written (line :: rest) = line ++ '\n' :: written rest := by
  simp [written]

theorem written_append (some more : List Text) : written (some ++ more) = written some ++ written more :=
  List.flatMap_append

theorem page_eq_written (lines : List Text) : Text.page lines = written lines := by
  cases lines with
  | nil => rfl
  | cons line rest =>
    change Text.joinWith ['\n'] (line :: rest) ++ ['\n'] = _
    induction rest generalizing line with
    | nil => simp [Text.joinWith, written]
    | cons next more ih =>
      rw [Text.joinWith, List.append_assoc, ih]
      · simp [written]
      · simp

theorem written_selectorLines (indent : Text) {parts : List Text} (some : parts ≠ []) :
    written (selectorLines indent parts) =
      indent ++ Text.joinWith (',' :: '\n' :: indent) parts ++ blockStart ++ ['\n'] := by
  induction parts with
  | nil => exact absurd rfl some
  | cons part rest ih =>
    cases rest with
    | nil => simp [selectorLines, written, Text.joinWith]
    | cons next more =>
      have others := ih (by simp)
      simp only [written] at others
      simp [selectorLines, written, Text.joinWith, others]

theorem isBlank_of_mem_indent {style : Style} {depth : Nat} {c : Char}
    (member : c ∈ style.indent depth) : isBlank c = true := by
  rcases Style.eq_of_mem_indent member with rfl | rfl <;> rfl

theorem newline_not_mem_indent (style : Style) (depth : Nat) : '\n' ∉ style.indent depth := by
  intro member
  rcases Style.eq_of_mem_indent member with same | same <;> cases same

/-- The indentation of a depth as lexemes. -/
def indentLexemes (style : Style) (depth : Nat) : List Lexeme := (style.indent depth).map .char

theorem isBlank_of_mem_indentLexemes {style : Style} {depth : Nat} {l : Lexeme}
    (member : l ∈ indentLexemes style depth) : l.isBlank = true := by
  obtain ⟨c, inside, rfl⟩ := List.mem_map.mp member
  exact isBlank_of_mem_indent inside

theorem flatMap_text_indentLexemes (style : Style) (depth : Nat) :
    (indentLexemes style depth).flatMap Lexeme.text = style.indent depth := by
  simp [indentLexemes, List.flatMap_map, Lexeme.text]

section Written

variable {ls : List Lexeme} (phrasal : Phrasal ls) (last : ∀ l ∈ ls.getLast?, l.isBlank = false)
include phrasal

/-- A prelude is cut into pieces that can be read back. -/
theorem exists_pieces_of_phrasal :
    ∃ ps, Pieces 0 (ps.map delimiters) ∧ ls = joined [.char ','] ps ∧ (∀ p ∈ ps, Lexed p) ∧
      (∀ p ∈ ps, Spaced p) ∧
      selectors (ls.flatMap Lexeme.text) = ps.map fun p => (trimmed p).flatMap Lexeme.text := by
  obtain ⟨p, ps, pieces, rfl⟩ := exists_pieces 0 ls
  have lexed : ∀ q ∈ p :: ps, Lexed q := fun q member => phrasal.lexed.within (mem_infix_joined member)
  refine ⟨p :: ps, pieces, rfl, lexed,
    fun q member => phrasal.spaced.within (mem_infix_joined member), ?_⟩
  rw [selectors, lexemes_flatMap_text phrasal.lexed, partsFrom_joined pieces, List.reverse_nil,
    List.nil_append, ← List.map_cons, List.map_map]
  exact List.map_congr_left fun q member => trim_flatMap_text (lexed q member).1

include last in
/-- The lines that open a block are read as one statement with the same marks, whose phrase is the
tidied prelude. -/
theorem exists_openingLines (style : Style) (depth : Nat) :
    ∃ xs, Lexed xs ∧ begins xs = true ∧ marks xs = marks ls ∧
      phrase xs = tidiedPrelude (ls.flatMap Lexeme.text) ∧
      written (openingLines style depth (ls.flatMap Lexeme.text)) =
        style.indent depth ++ xs.flatMap Lexeme.text ++ blockStart ++ ['\n'] := by
  by_cases rule : isAtRule (ls.flatMap Lexeme.text) = true
  · refine ⟨ls, phrasal.lexed, phrasal.starts, rfl, ?_, ?_⟩
    · rw [phrase_eq phrasal.lexed, tightened_of_spaced phrasal.spaced,
        trimmed_of_ends phrasal.head last, tidiedPrelude, if_pos rule]
    · simp [openingLines, rule, written]
  · obtain ⟨ps, pieces, rfl, lexed, spaced, same⟩ := exists_pieces_of_phrasal phrasal
    -- the blanks behind the commas depend on whether the selectors share one line
    have read (bs : List Lexeme) (blanks : ∀ b ∈ bs, b.isBlank = true) (some : bs ≠ []) :
        Lexed (joined (.char ',' :: bs) (ps.map trimmed)) ∧
          begins (joined (.char ',' :: bs) (ps.map trimmed)) = true ∧
          marks (joined (.char ',' :: bs) (ps.map trimmed)) = marks (joined [.char ','] ps) ∧
          phrase (joined (.char ',' :: bs) (ps.map trimmed)) =
            tidiedPrelude ((joined [.char ','] ps).flatMap Lexeme.text) := by
      refine ⟨lexed_joined_trimmed lexed blanks, ?_, ?_, ?_⟩
      · have starts := phrasal.starts
        cases ps with
        | nil => exact pieces.elim
        | cons p rest =>
          cases rest with
          | nil => exact begins_trimmed starts
          | cons q more =>
            rw [joined_cons, List.append_assoc] at starts
            rw [List.map_cons, List.map_cons, joined_cons, List.append_assoc]
            exact begins_trimmed_append (by decide) starts _
      · have unmarked : marks (.char ',' :: bs) = [] := by
          rw [marks_cons, marks_of_blanks blanks]
          rfl
        rw [marks_joined unmarked, marks_joined rfl, List.flatMap_map]
        simp [marks_trimmed]
      · rw [phrase_joined lexed spaced blanks some, tidiedPrelude, if_neg rule, same]
    have texts : ∀ bs, (joined (.char ',' :: bs) (ps.map trimmed)).flatMap Lexeme.text =
        Text.joinWith (',' :: bs.flatMap Lexeme.text)
          (selectors ((joined [.char ','] ps).flatMap Lexeme.text)) := by
      intro bs
      rw [flatMap_text_joined, List.map_map, same]
      rfl
    by_cases one : ((selectors ((joined [.char ','] ps).flatMap Lexeme.text)).length < 2 ||
        style.fits (style.indent depth ++ Text.joinWith ", "
          (selectors ((joined [.char ','] ps).flatMap Lexeme.text)) ++ blockStart)) = true
    · obtain ⟨whole, starts, unchanged, tidied⟩ := read [.char ' '] (by simp) (by simp)
      refine ⟨_, whole, starts, unchanged, tidied, ?_⟩
      rw [openingLines, if_neg rule, if_pos one, texts]
      simp [written, Lexeme.text]
    · obtain ⟨whole, starts, unchanged, tidied⟩ := read (.char '\n' :: indentLexemes style depth)
        (List.forall_mem_cons.mpr ⟨rfl, fun _ => isBlank_of_mem_indentLexemes⟩) (by simp)
      refine ⟨_, whole, starts, unchanged, tidied, ?_⟩
      have some : selectors ((joined [.char ','] ps).flatMap Lexeme.text) ≠ [] := by
        simp [selectors, partsFrom_ne_nil]
      rw [openingLines, if_neg rule, if_neg one, texts, written_selectorLines _ some,
        List.flatMap_cons, flatMap_text_indentLexemes]
      rfl

/-- A tidied prelude has the selectors of the prelude, joined by commas and spaces. -/
theorem selectors_tidiedPrelude (rule : ¬ isAtRule (ls.flatMap Lexeme.text) = true) :
    selectors (tidiedPrelude (ls.flatMap Lexeme.text)) = selectors (ls.flatMap Lexeme.text) := by
  obtain ⟨ps, pieces, rfl, lexed, spaced, same⟩ := exists_pieces_of_phrasal phrasal
  rw [tidiedPrelude, if_neg rule, same, selectors_joined lexed spaced pieces]

/-- A tidied prelude opens a block as the prelude does. -/
theorem openingLines_tidiedPrelude (style : Style) (depth : Nat) :
    openingLines style depth (tidiedPrelude (ls.flatMap Lexeme.text)) =
      openingLines style depth (ls.flatMap Lexeme.text) := by
  by_cases rule : isAtRule (ls.flatMap Lexeme.text) = true
  · rw [tidiedPrelude, if_pos rule]
  · have parts := selectors_tidiedPrelude phrasal rule
    obtain ⟨ps, pieces, rfl, lexed, spaced, same⟩ := exists_pieces_of_phrasal phrasal
    have some : ps ≠ [] := by
      rintro rfl
      exact pieces
    have starts : isAtRule (tidiedPrelude ((joined [.char ','] ps).flatMap Lexeme.text)) =
        isAtRule ((joined [.char ','] ps).flatMap Lexeme.text) := by
      have whole : Lexed (joined [.char ',', .char ' '] (ps.map trimmed)) :=
        lexed_joined_trimmed lexed (by simp)
      have text := trim_flatMap_text whole.1
      rw [flatMap_text_joined, List.map_map] at text
      refine isAtRule_of_head? ?_
      rw [tidiedPrelude, if_neg rule, same]
      refine (congrArg List.head? text).trans (head?_flatMap_text ?_)
      rw [head?_trimmed_of_head? (spaced_joined spaced).2]
      exact head?_joined_trimmed some phrasal.head
    rw [openingLines, openingLines, parts, starts, if_neg rule, if_neg rule]

end Written

end StaticSite.Stylesheet
