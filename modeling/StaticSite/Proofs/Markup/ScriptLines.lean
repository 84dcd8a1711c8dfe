import StaticSite.Proofs.Markup.Fixpoint

/-! # Lines of a script

A script is moved as a whole: the blank lines around it go, and so do the blanks at the ends of its
lines, and the indentation that its lines share gives way to that of the place. What is written so
shares the new indentation and nothing more, so that writing it again moves nothing.
-/

namespace StaticSite.Markup

/-! ## The lines that are kept -/

/-- Whether lines are those of a text without the blank ones before its first and behind its last
visible line. -/
structure Kept (body : Text) (kept : List Text) : Prop where
  whole : ∃ before behind, Text.lines body = before ++ kept ++ behind ∧
    ∀ l ∈ before ++ behind, l.isBlank = true
  first : ∀ l ∈ kept.head?, l.isBlank = false
  last : ∀ l ∈ kept.getLast?, l.isBlank = false

theorem kept_iff {body : Text} {kept : List Text} :
    Kept body kept ↔ kept = Text.trimLines (Text.lines body) := by
  constructor
  · rintro ⟨⟨before, behind, whole, blank⟩, first, last⟩
    obtain ⟨above, below⟩ := List.forall_mem_append.mp blank
    rw [whole, Text.trimLines_around above below, trimLines_of_ends first last]
  · rintro rfl
    exact ⟨Text.exists_trimLines _, Text.head?_trimLines _, Text.getLast?_trimLines _⟩

/-! ## Lines behind another indentation -/

/-- A line with its indentation exchanged; an empty line stays empty. -/
inductive Moves (shared indent : Text) : Text → Text → Prop
  | empty : Moves shared indent [] []
  | behind {rest : Text} (some : rest ≠ []) : Moves shared indent (shared ++ rest) (indent ++ rest)

theorem Moves.unique {shared indent l k k' : Text} (first : Moves shared indent l k)
    (second : Moves shared indent l k') : k = k' := by
  cases first with
  | empty =>
    generalize line : ([] : Text) = l at second
    cases second with
    | empty => rfl
    | behind some => exact absurd (List.append_eq_nil_iff.mp line.symm).2 some
  | behind some =>
    generalize line : shared ++ _ = l at second
    cases second with
    | empty => exact absurd (List.append_eq_nil_iff.mp line).2 some
    | behind other => rw [List.append_cancel_left line]

/-- Whether lines are those of a text, without blank ones at the ends and without blanks at the ends
of lines, with an indentation in the place of the one they share. -/
def Moved (indent body : Text) (ls : List Text) : Prop :=
  ∃ kept shared, Kept body kept ∧
    Text.SharedIndent shared (kept.map (Text.trimRight isBlank)) ∧
    List.Forall₂ (Moves shared indent) (kept.map (Text.trimRight isBlank)) ls

theorem Moved.unique {indent body : Text} {ls ks : List Text} (first : Moved indent body ls)
    (second : Moved indent body ks) : ls = ks := by
  obtain ⟨kept, shared, lines, shares, moved⟩ := first
  obtain ⟨kept', shared', lines', shares', moved'⟩ := second
  obtain rfl := (kept_iff.mp lines).trans (kept_iff.mp lines').symm
  obtain rfl := shares.unique shares'
  have single : Relator.RightUnique (Moves shared indent) := fun _ _ _ => Moves.unique
  exact single.forall₂ moved moved'

theorem exists_margin_bared {body : Text} (visible : body.isBlank = false) :
    ∃ m, Text.margin (bared body) = some m := by
  cases found : Text.margin (bared body) with
  | some m => exact ⟨m, rfl⟩
  | none =>
    obtain ⟨l, rest, kept⟩ := List.exists_cons_of_ne_nil (trimLines_ne_nil visible)
    have member : Text.trimRight isBlank l ∈ bared body :=
      List.mem_map_of_mem (by rw [kept]; exact List.mem_cons_self)
    have empty := clean_bared body _ member (Text.isBareLine_of_margin found _ member)
    have shows := Text.head?_trimLines _ l (by rw [kept]; rfl)
    rw [← Text.isBlank_trimRight, empty] at shows
    cases shows

theorem moved_movedLines {body : Text} (visible : body.isBlank = false) (indent : Text) :
    Moved indent body (movedLines indent body) := by
  obtain ⟨m, found⟩ := exists_margin_bared visible
  refine ⟨_, m, kept_iff.mpr rfl, Text.sharedIndent_margin (clean_bared body) found, ?_⟩
  rw [movedLines_eq_shift visible, Text.shift, Text.dedent, List.map_map]
  change List.Forall₂ _ (bared body) _
  rw [List.forall₂_map_right_iff, List.forall₂_same]
  intro l member
  by_cases bare : Text.isBareLine l = true
  · obtain rfl := clean_bared body l member bare
    exact .empty
  · obtain ⟨rest, whole, shows, cut⟩ := Text.exists_behind_margin member bare
    have some : rest ≠ [] := by
      rintro rfl
      exact shows rfl
    simp only [Function.comp, if_neg bare, cut, if_neg (mt List.isEmpty_iff.mp some)]
    rw [found, Option.getD_some] at whole
    rw [whole]
    exact .behind some

/-- Moving a text that shows gives the moved lines of it and no others. -/
theorem moved_iff {body : Text} (visible : body.isBlank = false) {indent : Text} {ls : List Text} :
    Moved indent body ls ↔ ls = movedLines indent body := by
  constructor
  · intro moved
    exact moved.unique (moved_movedLines visible indent)
  · rintro rfl
    exact moved_movedLines visible indent

/-- Moved lines share the indentation they were moved to. -/
theorem sharedIndent_movedLines {indent body : Text} (indents : Text.isBareLine indent = true)
    (visible : body.isBlank = false) : Text.SharedIndent indent (movedLines indent body) := by
  have clean := clean_bared body
  obtain ⟨m, found⟩ := exists_margin_bared visible
  rw [movedLines_eq_shift visible]
  apply Text.sharedIndent_margin
  · exact Text.clean_shift (Text.clean_dedent _)
  · exact Text.margin_shift_dedent indents clean found

/-! ## Scripts -/

/-- A script without a template literal has its moved lines between its tags. -/
theorem nodeLines_script {children : List Node} (visible : (rawBody children).isBlank = false)
    (plain : '\x60' ∉ rawBody children) (style : Style) (depth : Nat) (attributes : Attributes) :
    nodeLines style depth (.element "script" attributes children) =
      .ok (startLines style depth "script" attributes ">" ++
        movedLines (style.indent (depth + 1)) (rawBody children) ++
        [style.indent depth ++ endTag "script"]) := by
  have quiet : ¬ holdsTemplate "script" (rawBody children) = true := by
    rw [holdsTemplate, Bool.and_eq_true, List.elem_iff]
    exact fun both => plain both.2
  have made : rawLines style depth "script" (rawBody children) =
      .ok (movedLines (style.indent (depth + 1)) (rawBody children)) := by
    rw [rawLines, if_neg quiet, if_neg (by decide)]
  apply nodeLines_of_elementLines
  exact .raw (by decide) (by decide) (by decide) (by simp [visible]) made

/-- A script that shows and holds no template literal is written with its lines moved: those of the
script from its first visible line to its last, without blanks at the ends of lines, behind the
indentation of the depth in the place of the longest one that they share. The lines share that
indentation, and standing between the tags they are written as they are. -/
theorem script_moved_once {children : List Node} (visible : (rawBody children).isBlank = false)
    (plain : '\x60' ∉ rawBody children) (style : Style) (depth : Nat) (attributes : Attributes) :
    ∃ ls lines, lines = startLines style depth "script" attributes ">" ++ ls ++
        [style.indent depth ++ endTag "script"] ∧
      nodeLines style depth (.element "script" attributes children) = .ok lines ∧
      nodeLines style depth (.element "script" attributes
        [.text (between (style.indent depth) ls)]) = .ok lines ∧
      (∀ ks, Moved (style.indent (depth + 1)) (rawBody children) ks ↔ ks = ls) ∧
      Text.SharedIndent (style.indent (depth + 1)) ls := by
  have indents := isBareLine_indent style (depth + 1)
  have outer := isBareLine_indent style depth
  have words := words_between_movedLines indents outer (rawBody children)
  have body := rawBody_text (between (style.indent depth)
    (movedLines (style.indent (depth + 1)) (rawBody children)))
  refine ⟨movedLines (style.indent (depth + 1)) (rawBody children), _, rfl, ?_, ?_, ?_, ?_⟩
  · exact nodeLines_script visible plain style depth attributes
  · have shows := visible_of_words visible words.symm
    have quiet := mt (mem_of_words words (by decide)).mp plain
    rw [← body] at shows quiet
    rw [nodeLines_script shows quiet, body, movedLines_between indents outer visible]
  · exact fun ks => moved_iff visible
  · exact sharedIndent_movedLines indents visible

/-- A script behind tabs and spaces, with an empty line and blanks at the end of a line. -/
def branchScript : Text := "\n\t  if (a) \x7b\n\n\t    b();  \n\t  \x7d\n"

/-- The lines of `branchScript` between its tags. -/
def branchLines : List Text := ["    if (a) \x7b", "", "      b();", "    \x7d"]

theorem script_moved_once_branchScript :
    (rawBody [.text branchScript]).isBlank = false ∧ '\x60' ∉ rawBody [.text branchScript] ∧
      nodeLines .standard 1 (.element "script" [] [.text branchScript]) =
        .ok (["  <script>".toList] ++ branchLines ++ ["  </script>".toList]) ∧
      nodeLines .standard 1 (.element "script" [] [.text (between "  " branchLines)]) =
        .ok (["  <script>".toList] ++ branchLines ++ ["  </script>".toList]) ∧
      Moved "    " branchScript branchLines ∧ Text.SharedIndent "    " branchLines := by
  have visible : (rawBody [.text branchScript]).isBlank = false := by decide
  have plain : '\x60' ∉ rawBody [.text branchScript] := by decide
  have moved : movedLines (Style.standard.indent 2) (rawBody [.text branchScript]) = branchLines := by
    decide
  obtain ⟨ls, lines, rfl, once, again, only, shares⟩ := script_moved_once visible plain .standard 1 []
  obtain rfl : branchLines = ls := by
    apply (only branchLines).mp
    rw [← moved]
    exact moved_movedLines visible _
  exact ⟨visible, plain, once, again, (only branchLines).mpr rfl, shares⟩

end StaticSite.Markup
