import StaticSite.Proofs.Markup.Blocks
import StaticSite.Proofs.Text.Lines

/-! # Lines of raw content

What the layout does to the content of an element with raw content, line by line. A script loses
blank lines at its ends and changes its white space at the ends of lines. A stylesheet that has been
laid out starts at the margin, so its lines are indented as they are, and lose the blanks at their
ends.
-/

namespace StaticSite

/-! ## Lines of a stylesheet -/

namespace Stylesheet

open Markup (Solid)

theorem lines_written_append (ls : List Text) (t : Text) :
    Text.lines (written ls ++ t) = ls.flatMap Text.lines ++ Text.lines t := by
  induction ls with
  | nil => rfl
  | cons l rest ih =>
    rw [written_cons, List.append_assoc, List.cons_append, Text.lines, Text.splitAt_append_cons,
      List.flatMap_cons, List.append_assoc, ← ih]
    rfl

theorem solid_declarationText {parens : Nat} {t : Text} (statement : Statement parens t) :
    Solid (declarationText t) := by
  have semicolon (s : Text) : ∃ c ∈ (s ++ [';']).getLast?, isBlank c = false :=
    ⟨';', by simp, by decide⟩
  unfold declarationText
  split
  · refine ⟨?_, semicolon _⟩
    obtain ⟨c, rest, rfl⟩ := List.exists_cons_of_ne_nil statement.ne_nil
    exact ⟨c, rfl, statement.head c rfl⟩
  · refine ⟨?_, semicolon _⟩
    dsimp only
    cases name : (Text.splitFirst ':' t).1.trim with
    | nil => exact ⟨':', rfl, by decide⟩
    | cons c rest => exact ⟨c, rfl, Text.head?_trim (Text.splitFirst ':' t).1 c (by rw [name]; rfl)⟩

theorem solid_comment (body : Text) : Solid (Lexeme.comment body).text :=
  .between (x := "/*") (y := "*/") ⟨⟨'/', rfl, by decide⟩, ⟨'*', rfl, by decide⟩⟩
    ⟨⟨'*', rfl, by decide⟩, ⟨'/', rfl, by decide⟩⟩ body

/-- Whether the last line of lines at a depth stands at the margin. -/
def EndsAtMargin (depth : Nat) (lines : List Text) : Prop :=
  lines = [] ∧ depth = 0 ∨ ∃ before last, lines = before ++ [last] ∧ Solid last

/-- The lines of a token and of what follows end at the margin when the lines that follow do, and
the token's own last line does where nothing follows. -/
theorem EndsAtMargin.of_map {inner depth : Nat} {own lines : List Text}
    {result : Except Fault (List Text)} (mapped : result.map (own ++ ·) = .ok lines)
    (ends : inner = 0 → ∃ before last, own = before ++ [last] ∧ Solid last)
    (behind : ∀ more, result = .ok more → EndsAtMargin inner more) : EndsAtMargin depth lines := by
  obtain ⟨more, made, rfl⟩ := exists_of_map mapped
  rcases behind more made with ⟨rfl, outer⟩ | ⟨front, final, rfl, solid⟩
  · obtain ⟨before, last, rfl, solid⟩ := ends outer
    exact .inr ⟨before, last, List.append_nil _, solid⟩
  · exact .inr ⟨own ++ front, final, (List.append_assoc _ _ _).symm, solid⟩

theorem endsAtMargin_linesFrom {style : Style} {depth : Nat} {above : Above} {ts : List Token}
    {lines : List Text} (laid : linesFrom style none depth above ts = .ok lines) {parens : Nat}
    (readable : Readable parens ts) : EndsAtMargin depth lines := by
  induction ts generalizing depth above lines parens with
  | nil =>
    rw [linesFrom] at laid
    split at laid
    · next outer =>
      obtain rfl := Except.ok.inj laid
      exact .inl ⟨rfl, outer⟩
    · cases laid
  | cons token rest ih =>
    cases token with
    | closing =>
      cases depth with
      | zero => cases laid
      | succ outer =>
        rw [linesFrom] at laid
        have closed (margin : outer = 0) : ∃ before last,
            [style.indent outer ++ ['\x7d']] = before ++ [last] ∧ Solid last := by
          subst margin
          exact ⟨[], _, rfl, ⟨'\x7d', rfl, by decide⟩, ⟨'\x7d', rfl, by decide⟩⟩
        exact .of_map laid closed fun more made => ih made readable
    | opening start =>
      rw [linesFrom] at laid
      exact .of_map laid (fun inside => absurd inside (Nat.succ_ne_zero depth)) fun more made =>
        ih made readable.2
    | declaration t =>
      rw [linesFrom] at laid
      refine .of_map laid (fun margin => ⟨gap depth above, _, rfl, ?_⟩) fun more made =>
        ih made readable.2.2
      subst margin
      exact solid_declarationText readable.1
    | comment t =>
      obtain ⟨⟨body, -, rfl⟩, later⟩ := readable
      rw [linesFrom] at laid
      refine .of_map laid (fun margin => ⟨gap depth above, _, rfl, ?_⟩) fun more made =>
        ih made later
      subst margin
      exact solid_comment body

/-- Whether the first line of a text is not blank. -/
def StartsVisible (t : Text) : Prop := ∃ line ∈ (Text.lines t).head?, Text.isBlank line = false

theorem startsVisible_of_head? {t : Text} {c : Char} (first : c ∈ t.head?)
    (visible : isBlank c = false) : StartsVisible t := by
  obtain ⟨line, head, start⟩ := Text.visible_head?_lines first visible
  refine ⟨line, head, ?_⟩
  obtain ⟨rest, rfl⟩ := List.head?_eq_some_iff.mp start
  simp [Text.isBlank, visible]

theorem startsVisible_trim_append (t : Text) {c : Char} (visible : isBlank c = false) (rest : Text) :
    StartsVisible (t.trim ++ c :: rest) := by
  cases trimmed : t.trim with
  | nil => exact startsVisible_of_head? rfl visible
  | cons d more => exact startsVisible_of_head? rfl (Text.head?_trim t d (by rw [trimmed]; rfl))

theorem startsVisible_solid {t : Text} (solid : Solid t) : StartsVisible t := by
  obtain ⟨c, first, visible⟩ := solid.head
  exact startsVisible_of_head? first visible

/-- The first line that opens a block at the top level is not blank. -/
theorem startsVisible_openingLines (style : Style) (start : Text) :
    ∃ l rest, openingLines style 0 start = l :: rest ∧ StartsVisible l := by
  have list : ∃ (p : Text) (ps : List Text), selectors start = p.trim :: ps := by
    obtain ⟨p, ps, split⟩ := List.exists_cons_of_ne_nil (partsFrom_ne_nil [] 0 (lexemes start))
    exact ⟨p, ps.map Text.trim, by rw [selectors, split]; rfl⟩
  obtain ⟨p, ps, list⟩ := list
  unfold openingLines
  dsimp only
  rw [list]
  split
  · next atRule =>
    refine ⟨start ++ blockStart, [], rfl, ?_⟩
    obtain ⟨rest, rfl⟩ := List.head?_eq_some_iff.mp (beq_iff_eq.mp atRule)
    exact startsVisible_of_head? rfl (by decide)
  · cases ps with
    | nil =>
      refine ⟨p.trim ++ blockStart, [], by simp [Text.joinWith], ?_⟩
      cases trimmed : p.trim with
      | nil => exact ⟨blockStart, rfl, rfl⟩
      | cons d more => exact startsVisible_of_head? rfl (Text.head?_trim p d (by rw [trimmed]; rfl))
    | cons q qs =>
      split
      · refine ⟨_, [], rfl, ?_⟩
        rw [Text.joinWith, List.append_assoc, List.append_assoc, List.append_assoc]
        · exact startsVisible_trim_append p (c := ',') (by decide) _
        · simp
      · exact ⟨p.trim ++ [','], _, rfl, startsVisible_trim_append p (by decide) []⟩

/-- A stylesheet starts with a line that is not blank. -/
theorem startsVisible_linesFrom {style : Style} {ts : List Token} {lines : List Text}
    (laid : linesFrom style none 0 .nothing ts = .ok lines) {parens : Nat}
    (readable : Readable parens ts) : ∀ l ∈ lines.head?, StartsVisible l := by
  intro l first
  cases ts with
  | nil =>
    obtain rfl := Except.ok.inj laid
    cases first
  | cons token rest =>
    cases token with
    | closing => cases laid
    | opening start =>
      obtain ⟨more, -, rfl⟩ := exists_of_map laid
      obtain ⟨k, others, opens, visible⟩ := startsVisible_openingLines style start
      obtain rfl : k = l := by simpa [gap, opens] using first
      exact visible
    | declaration t =>
      obtain ⟨more, -, rfl⟩ := exists_of_map laid
      obtain rfl : declarationText t = l := by simpa [gap] using first
      exact startsVisible_solid (solid_declarationText readable.1)
    | comment t =>
      obtain ⟨⟨body, -, rfl⟩, -⟩ := readable
      obtain ⟨more, -, rfl⟩ := exists_of_map laid
      obtain rfl : (Lexeme.comment body).text = l := by simpa [gap] using first
      exact startsVisible_solid (solid_comment body)

/-- Lines that neither start nor end with a blank one, with one at the margin. -/
structure Flush (ls : List Text) : Prop where
  first : ∀ l ∈ ls.head?, Text.isBlank l = false
  last : ∀ l ∈ ls.getLast?, Text.isBlank l = false
  margin : ∃ l ∈ ls, ∃ c ∈ l.head?, isBlank c = false

theorem Flush.trimLines_append {ls : List Text} (flush : Flush ls) :
    Text.trimLines (ls ++ [[]]) = ls := by
  obtain ⟨l, member, -⟩ := flush.margin
  have first : ∀ k ∈ (ls ++ [[]]).head?, Text.isBlank k = false := by
    obtain ⟨k, rest, rfl⟩ := List.exists_cons_of_ne_nil (List.ne_nil_of_mem member)
    exact flush.first
  change ((ls ++ [[]]).dropWhile Text.isBlank).rdropWhile Text.isBlank = ls
  rw [dropWhile_of_head? first, rdropWhile_append_of_forall (by simp [Text.isBlank]),
    rdropWhile_of_getLast? flush.last]

/-- Lines that start with a visible one and end at the margin. -/
theorem Flush.of_solid {before : List Text} {last : Text}
    (first : ∀ l ∈ (before ++ [last]).head?, StartsVisible l) (solid : Solid last) :
    Flush (before.flatMap Text.lines ++ Text.lines last) where
  first l head := by
    have starts : ∃ line ∈ (before.flatMap Text.lines ++ Text.lines last).head?,
        Text.isBlank line = false := by
      cases before with
      | nil => exact first last rfl
      | cons b bs =>
        obtain ⟨line, start, visible⟩ := first b rfl
        obtain ⟨rest, split⟩ := List.head?_eq_some_iff.mp start
        exact ⟨line, by simp [split], visible⟩
    obtain ⟨line, start, visible⟩ := starts
    rwa [Option.mem_unique head start]
  last l ends := by
    obtain ⟨c, final, visible⟩ := solid.last
    obtain ⟨line, here, inside⟩ := Text.visible_getLast?_lines final visible
    obtain rfl : line = l :=
      Option.mem_unique (mem_getLast?_of_ending (List.suffix_append _ _) _ here) ends
    by_contra blank
    have drops := List.all_eq_true.mp (Bool.not_eq_false _ ▸ blank) c inside
    rw [visible] at drops
    cases drops
  margin := by
    obtain ⟨c, starts, visible⟩ := solid.head
    obtain ⟨line, head, start⟩ := Text.visible_head?_lines starts visible
    exact ⟨line, List.mem_append_right _ (List.mem_of_mem_head? head), c, start, visible⟩

/-- The lines of a stylesheet start at the margin. -/
theorem flush_of_format {style : Style} {t out : Text} (laid : format style t = .ok out)
    (some : out ≠ []) :
    Text.lines out = Text.lines out.dropLast ++ [[]] ∧ Flush (Text.lines out.dropLast) := by
  obtain ⟨sound, readable⟩ := fault_of_format laid
  obtain ⟨lines, made, rfl⟩ := format_eq_ok_iff.mp laid
  rw [sound] at made
  rcases endsAtMargin_linesFrom made readable with ⟨rfl, -⟩ | ⟨before, last, rfl, solid⟩
  · exact absurd rfl some
  have whole : (written (before ++ [last])).dropLast = written before ++ last := by
    rw [written_append, show written [last] = last ++ ['\n'] by simp [written], ← List.append_assoc,
      List.dropLast_concat]
  have all := lines_written_append (before ++ [last]) []
  rw [List.append_nil, List.flatMap_append, List.flatMap_singleton] at all
  rw [whole, lines_written_append before last]
  exact ⟨all, .of_solid (startsVisible_linesFrom made readable) solid⟩

end Stylesheet

/-! ## Lines that are moved -/

namespace Markup

/-- Whether lines are those of a text, blank ones at the ends left out, with other blanks at their
ends. -/
def Shifted (body : Text) (moved : List Text) : Prop :=
  ∃ before middle behind, Text.lines body = before ++ middle ++ behind ∧
    (∀ l ∈ before ++ behind, l.isBlank = true) ∧
    List.Forall₂ (fun line now => now.trim = line.trim) middle moved

/-- A line behind an indentation, without blanks at its end; nothing where it is blank. -/
def indented (indent line : Text) : Text :=
  if line.isBlank then [] else indent ++ Text.trimRight isBlank line

theorem shifted_trimLines (body : Text) : Shifted body (Text.trimLines (Text.lines body)) := by
  obtain ⟨before, behind, whole, blanks⟩ := Text.exists_trimLines (Text.lines body)
  exact ⟨before, _, behind, whole, blanks, List.forall₂_same.mpr fun _ _ => rfl⟩

/-- What moving does to one line of a text. -/
theorem movedLines_eq (indent body : Text) : ∃ ls : List Text,
    ls = (if (Text.trimLines (Text.lines body)).isEmpty then [[]]
      else (Text.trimLines (Text.lines body)).map (Text.trimRight isBlank)) ∧
    movedLines indent body = (Text.dedent ls).map fun line =>
      if line.isEmpty then [] else indent ++ line := by
  refine ⟨_, rfl, ?_⟩
  rw [movedLines, Text.trimLines_map Text.isBlank_trimRight, List.isEmpty_map]

/-- The layout moves the lines of a script. -/
theorem shifted_movedLines {indent : Text} (blanks : ∀ c ∈ indent, isBlank c = true) (body : Text) :
    Shifted body (movedLines indent body) := by
  obtain ⟨before, behind, whole, ends⟩ := Text.exists_trimLines (Text.lines body)
  obtain ⟨ls, kept, moved⟩ := movedLines_eq indent body
  rw [moved]
  by_cases none : Text.trimLines (Text.lines body) = []
  · -- One empty line stands for a text of blank lines.
    rw [none] at whole kept
    have all : ∀ k ∈ Text.lines body, k.isBlank = true :=
      fun k member => ends k (by simpa [whole] using member)
    obtain ⟨l, rest, lines⟩ : ∃ l rest, Text.lines body = l :: rest :=
      List.exists_cons_of_ne_nil (Text.splitAt_ne_nil '\n' body)
    rw [lines] at all
    obtain ⟨here, others⟩ := List.forall_mem_cons.mp all
    subst kept
    exact ⟨[], [l], rest, lines, others, .cons (Text.trim_of_isBlank here).symm .nil⟩
  · rw [if_neg (by simpa using none)] at kept
    subst kept
    refine ⟨before, _, behind, whole, ends, ?_⟩
    rw [Text.dedent, List.map_map, List.map_map, List.forall₂_map_right_iff]
    refine List.forall₂_same.mpr fun line member => ?_
    obtain ⟨taken, rest, all, split, cut⟩ :=
      Text.exists_dedent (List.mem_map_of_mem (f := Text.trimRight isBlank) member)
    have inner : line.trim = rest.trim := by
      rw [← Text.trim_blanks_append all rest, ← split]
      exact (Text.trim_rdropWhile line).symm
    simp only [Function.comp, cut, inner]
    split
    · next empty => rw [List.isEmpty_iff.mp empty]
    · exact Text.trim_blanks_append blanks rest

/-- The layout indents the lines of a stylesheet. -/
theorem movedLines_of_format {style : Style} {t out : Text}
    (laid : Stylesheet.format style t = .ok out) (indent : Text) :
    movedLines indent out = (Text.lines out.dropLast).map (indented indent) := by
  by_cases none : out = []
  · subst none
    rfl
  obtain ⟨whole, flush⟩ := Stylesheet.flush_of_format laid none
  obtain ⟨ls, kept, moved⟩ := movedLines_eq indent out
  obtain ⟨l, member, c, first, visible⟩ := flush.margin
  rw [whole, flush.trimLines_append, if_neg (by simpa using List.ne_nil_of_mem member)] at kept
  subst kept
  have starts : ∀ d ∈ l.head?, isBlank d = false := fun d head => Option.mem_unique head first ▸ visible
  have margin := Text.margin_of_flush (List.mem_map_of_mem (f := Text.trimRight isBlank) member)
    ⟨c, (head?_rdropWhile starts).symm ▸ first, visible⟩
  rw [moved, Text.dedent, margin, List.map_map, List.map_map]
  refine List.map_congr_left fun line _ => ?_
  simp only [Function.comp, indented, List.length_nil, List.drop_zero]
  have same := Text.isBlank_trimRight line
  by_cases blank : line.isBlank = true
  · have none : Text.trimRight isBlank line = [] :=
      List.rdropWhile_eq_nil_iff.mpr (List.all_eq_true.mp blank)
    rw [if_pos blank, none]
    rfl
  · rw [if_neg blank]
    rw [← same] at blank
    have shown : ¬ Text.isBareLine (Text.trimRight isBlank line) = true := fun bare =>
      blank (List.all_eq_true.mpr (Text.isBlank_of_isBareLine bare))
    have some : Text.trimRight isBlank line ≠ [] := fun empty => blank (by rw [empty]; rfl)
    simp only [if_neg shown, if_neg (mt List.isEmpty_iff.mp some)]

end Markup

end StaticSite
