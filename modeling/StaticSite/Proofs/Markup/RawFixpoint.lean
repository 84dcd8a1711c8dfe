import StaticSite.Proofs.Stylesheet.Indenting
import StaticSite.Proofs.Text.Margin

/-! # Raw content at rest

The lines of raw content stand between the tags of its element, and are read back with the line break
before them and the indentation behind them. Their own lines are the same again: a script that is
moved starts where it has to, and the layout of a stylesheet is read through its indentation when no
comment and no string goes on over the end of a line.
-/

namespace StaticSite.Markup

open Stylesheet (written isBlank_of_mem_indent newline_not_mem_indent)

/-- The content of an element whose lines stand between its tags. -/
def between (outer : Text) (ls : List Text) : Text := '\n' :: (written ls ++ outer)

theorem lines_of_not_mem {t : Text} (inside : '\n' ∉ t) : Text.lines t = [t] :=
  Text.splitAt_of_not_mem inside

theorem lines_between {outer : Text} (flat : '\n' ∉ outer) {ls : List Text}
    (single : ∀ l ∈ ls, '\n' ∉ l) : Text.lines (between outer ls) = [[]] ++ ls ++ [outer] := by
  have same : ls.flatMap Text.lines = ls := by
    rw [List.flatMap_congr fun l member => lines_of_not_mem (single l member)]
    exact List.flatMap_singleton' ls
  have behind := Stylesheet.lines_written_append ls outer
  rw [same, lines_of_not_mem flat] at behind
  rw [between, Text.lines, Text.splitAt, if_pos rfl, ← Text.lines, behind]
  rfl

theorem trimLines_between {outer : Text} (flat : '\n' ∉ outer) (blank : outer.isBlank = true)
    {ls : List Text} (single : ∀ l ∈ ls, '\n' ∉ l) :
    Text.trimLines (Text.lines (between outer ls)) = Text.trimLines ls := by
  rw [lines_between flat single]
  exact Text.trimLines_around (by simp [Text.isBlank]) (by simpa using blank)

theorem trimLines_ne_nil {body : Text} (visible : body.isBlank = false) :
    Text.trimLines (Text.lines body) ≠ [] := by
  intro none
  have empty := Text.words_trimLines (Text.lines body)
  rw [none, Text.words_lines] at empty
  rw [Text.isBlank_of_words empty.symm] at visible
  cases visible

/-- The lines of a text at the margin: without blank lines at the ends and without blanks at the
ends of lines. -/
def bared (body : Text) : List Text :=
  (Text.trimLines (Text.lines body)).map (Text.trimRight isBlank)

theorem clean_bared (body : Text) : Text.Clean (bared body) := by
  intro l member bare
  obtain ⟨k, -, rfl⟩ := List.mem_map.mp member
  have none : Text.trimRight isBlank (Text.trimRight isBlank k) = [] :=
    List.rdropWhile_eq_nil_iff.mpr (Text.isBlank_of_isBareLine bare)
  exact (List.rdropWhile_idempotent isBlank k).symm.trans none

theorem movedLines_eq_shift {body : Text} (visible : body.isBlank = false) (indent : Text) :
    movedLines indent body = Text.shift indent (Text.dedent (bared body)) := by
  obtain ⟨ls, kept, moved⟩ := movedLines_eq indent body
  rw [if_neg (by simpa using trimLines_ne_nil visible)] at kept
  rw [moved, kept]
  rfl

/-- Moving takes blanks off a line and puts the indentation before what is left. -/
theorem exists_moved (indent body : Text) : ∃ move : Text → Text,
    Text.shift indent (Text.dedent (bared body)) = (bared body).map move ∧
    ∀ k ∈ bared body, ∃ blanks rest, (∀ c ∈ blanks, isBlank c = true) ∧ k = blanks ++ rest ∧
      move k = if rest.isEmpty then [] else indent ++ rest := by
  refine ⟨_, List.map_map, fun k member => ?_⟩
  obtain ⟨blanks, rest, all, whole, cut⟩ := Text.exists_dedent member
  exact ⟨blanks, rest, all, whole, by simp only [Function.comp, cut]⟩

theorem trimLines_of_ends {ls : List Text} (first : ∀ l ∈ ls.head?, l.isBlank = false)
    (last : ∀ l ∈ ls.getLast?, l.isBlank = false) : Text.trimLines ls = ls := by
  change (ls.dropWhile Text.isBlank).rdropWhile Text.isBlank = ls
  rw [dropWhile_of_head? first, rdropWhile_of_getLast? last]

theorem isBlank_append (s t : Text) : (s ++ t).isBlank = (s.isBlank && t.isBlank) := List.all_append

theorem flat_of_mem_trimLines {body line : Text} (member : line ∈ Text.trimLines (Text.lines body)) :
    '\n' ∉ line := by
  obtain ⟨before, behind, whole, -⟩ := Text.exists_trimLines (Text.lines body)
  refine Text.not_mem_of_mem_splitAt (t := body) ?_
  rw [← Text.lines, whole]
  exact List.mem_append_left _ (List.mem_append_right _ member)

section Moved

variable {indent : Text} (indents : Text.isBareLine indent = true) (body : Text)

theorem mem_bared {k : Text} (member : k ∈ bared body) :
    '\n' ∉ k ∧ ∀ c ∈ k.getLast?, isBlank c = false := by
  obtain ⟨line, inside, rfl⟩ := List.mem_map.mp member
  exact ⟨fun newline => flat_of_mem_trimLines inside ((List.rdropWhile_prefix _ _).subset newline),
    getLast?_rdropWhile line⟩

include indents

/-- Moved lines are lines without blanks at their ends, blank where the lines were. -/
theorem mem_shift_bared : ∀ l ∈ Text.shift indent (Text.dedent (bared body)),
    '\n' ∉ l ∧ Text.trimRight isBlank l = l := by
  intro l member
  obtain ⟨move, moved, each⟩ := exists_moved indent body
  rw [moved] at member
  obtain ⟨k, inside, rfl⟩ := List.mem_map.mp member
  obtain ⟨blanks, rest, -, rfl, made⟩ := each k inside
  obtain ⟨flat, ends⟩ := mem_bared body inside
  rw [made]
  by_cases none : rest = []
  · subst none
    exact ⟨List.not_mem_nil, rfl⟩
  · rw [if_neg (by simpa using none)]
    have last : ∀ c ∈ (indent ++ rest).getLast?, isBlank c = false := fun c final => ends c (by
      rw [List.getLast?_append_of_ne_nil _ none] at final ⊢
      exact final)
    refine ⟨fun newline => ?_, rdropWhile_of_getLast? last⟩
    rcases List.mem_append.mp newline with first | second
    · exact absurd (List.all_eq_true.mp indents _ first) (by decide)
    · exact flat (List.mem_append_right _ second)

theorem trimLines_shift : Text.trimLines (Text.shift indent (Text.dedent (bared body))) =
    Text.shift indent (Text.dedent (bared body)) := by
  obtain ⟨move, moved, each⟩ := exists_moved indent body
  have blank : indent.isBlank = true := List.all_eq_true.mpr (Text.isBlank_of_isBareLine indents)
  have same : ∀ k ∈ bared body, (move k).isBlank = k.isBlank := by
    intro k inside
    obtain ⟨blanks, rest, all, rfl, made⟩ := each k inside
    have taken : Text.isBlank blanks = true := List.all_eq_true.mpr all
    rw [made, isBlank_append, taken, Bool.true_and]
    split
    · next none => rw [List.isEmpty_iff.mp none]
    · rw [isBlank_append, blank, Bool.true_and]
  have visible : ∀ line ∈ Text.trimLines (Text.lines body), line.isBlank = false →
      (move (Text.trimRight isBlank line)).isBlank = false := by
    intro line inside shows
    rw [same _ (List.mem_map_of_mem inside), Text.isBlank_trimRight, shows]
  rw [moved, bared, List.map_map]
  apply trimLines_of_ends
  · intro l first
    rw [List.head?_map] at first
    obtain ⟨line, head, rfl⟩ := Option.map_eq_some_iff.mp first
    exact visible line (List.mem_of_mem_head? head) (Text.head?_trimLines _ line head)
  · intro l last
    rw [List.getLast?_map] at last
    obtain ⟨line, final, rfl⟩ := Option.map_eq_some_iff.mp last
    exact visible line (List.mem_of_mem_getLast? final) (Text.getLast?_trimLines _ line final)

end Moved

theorem visible_of_words {s t : Text} (visible : s.isBlank = false)
    (same : Text.words s = Text.words t) : t.isBlank = false := by
  cases blank : t.isBlank with
  | false => rfl
  | true =>
    rw [Text.words_of_blanks (List.all_eq_true.mp blank)] at same
    rw [Text.isBlank_of_words same] at visible
    cases visible

/-- Moved lines between two tags have the words of the text that is moved. -/
theorem words_between_movedLines {indent outer : Text} (indents : Text.isBareLine indent = true)
    (bare : Text.isBareLine outer = true) (body : Text) :
    Text.words (between outer (movedLines indent body)) = Text.words body := by
  rw [between, words_lines (Text.isBlank_of_isBareLine bare),
    words_movedLines (Text.isBlank_of_isBareLine indents)]

/-- Moving lines that stand moved between two tags leaves them where they are. -/
theorem movedLines_between {indent outer body : Text} (indents : Text.isBareLine indent = true)
    (bare : Text.isBareLine outer = true) (visible : body.isBlank = false) :
    movedLines indent (between outer (movedLines indent body)) = movedLines indent body := by
  have flat : '\n' ∉ outer := fun inside => absurd (List.all_eq_true.mp bare _ inside) (by decide)
  have each := mem_shift_bared indents body
  have moved := movedLines_eq_shift visible indent
  have shows : (between outer (movedLines indent body)).isBlank = false :=
    visible_of_words visible (words_between_movedLines indents bare body).symm
  have again : bared (between outer (movedLines indent body)) = movedLines indent body := by
    have blank : outer.isBlank = true := List.all_eq_true.mpr (Text.isBlank_of_isBareLine bare)
    rw [moved, bared.eq_def (between _ _), trimLines_between flat blank
      fun l member => (each l member).1, trimLines_shift indents body]
    exact (List.map_congr_left fun l member => (each l member).2).trans (List.map_id _)
  rw [movedLines_eq_shift shows, again, moved, Text.dedent_shift_dedent (clean_bared body) indents]

/-! ## Raw content -/

/-- A stylesheet whose layout, moved between tags, is read as the stylesheet was. -/
structure RestingSheet (style : Style) (t out : Text) : Prop where
  laid : Stylesheet.format style t = .ok out
  some : out ≠ []
  /-- The layout is read back as content. -/
  quiet : RawContent "style" out
  /-- Indentation stays outside comments and strings. -/
  lined : Stylesheet.Lined out
  /-- No block closes while a statement in it leaves a parenthesis open. -/
  ends : Stylesheet.finishes false 0 (Stylesheet.lexemes t) = true

/-- Whether the content of a style element is blank or has a layout that is laid out as it is. -/
def SteadySheet (style : Style) (t : Text) : Prop := t.isBlank = true ∨ ∃ out, RestingSheet style t out

theorem steadySheet_iff {style : Style} {t : Text} : SteadySheet style t ↔ t.isBlank = true ∨
    ∃ out ∈ (Stylesheet.format style t).toOption, out ≠ [] ∧ RawContent "style" out ∧
      Stylesheet.Lined out ∧ Stylesheet.finishes false 0 (Stylesheet.lexemes t) = true := by
  rw [SteadySheet]
  refine or_congr_right ⟨?_, ?_⟩
  · rintro ⟨out, rests⟩
    exact ⟨out, by simp [rests.laid, Except.toOption], rests.some, rests.quiet, rests.lined, rests.ends⟩
  · rintro ⟨out, laid, shows, quiet, lined, ends⟩
    refine ⟨out, ?_, shows, quiet, lined, ends⟩
    cases made : Stylesheet.format style t <;> simp_all [Except.toOption]

instance (style : Style) (t : Text) : Decidable (SteadySheet style t) :=
  decidable_of_iff _ steadySheet_iff.symm

theorem SteadySheet.sound {style : Style} {t : Text} (steady : SteadySheet style t) :
    SoundSheet style t :=
  steady.imp_right fun ⟨out, rests⟩ => ⟨out, rests.laid, rests.quiet⟩

/-- A layout of a stylesheet that is not empty shows something. -/
theorem isBlank_of_format {style : Style} {t out : Text} (laid : Stylesheet.format style t = .ok out)
    (some : out ≠ []) : out.isBlank = false := by
  obtain ⟨whole, flush⟩ := Stylesheet.flush_of_format laid some
  obtain ⟨l, member, c, first, shows⟩ := flush.margin
  by_contra none
  have all : out.isBlank = true := by simpa using none
  have empty := Text.words_of_blanks (List.all_eq_true.mp all)
  rw [← Text.words_lines, whole, List.flatMap_append, List.append_eq_nil_iff,
    List.flatMap_eq_nil_iff] at empty
  have blank := Text.isBlank_of_words (empty.1 l member)
  rw [List.all_eq_true.mp blank c (List.mem_of_mem_head? first)] at shows
  cases shows

theorem mem_of_words {s t : Text} (same : Text.words s = Text.words t) {c : Char}
    (visible : isBlank c = false) : c ∈ s ↔ c ∈ t := by
  have inside (t : Text) : c ∈ t ↔ c ∈ (Text.words t).flatten := by
    rw [Text.flatten_words, List.mem_filter]
    simp [visible]
  rw [inside s, inside t, same]

theorem isBareLine_indent (style : Style) (depth : Nat) : Text.isBareLine (style.indent depth) = true :=
  List.all_eq_true.mpr fun c member => by
    rcases Style.eq_of_mem_indent member with rfl | rfl <;> rfl

theorem holdsTemplate_of_words {name s t : Text} (same : Text.words s = Text.words t) :
    holdsTemplate name s = holdsTemplate name t := by
  have quote : s.elem '\x60' = t.elem '\x60' := by
    rw [Bool.eq_iff_iff, List.elem_iff, List.elem_iff]
    exact mem_of_words same (by decide)
  rw [holdsTemplate, holdsTemplate, quote]

/-- The lines of raw content that stand between the tags of an element are its lines again. -/
theorem rawLines_between {style : Style} {depth : Nat} {name body : Text}
    (visible : body.isBlank = false) (sheet : name = "style" → SteadySheet style body)
    {ls : List Text} (laid : rawLines style depth name body = .ok ls) :
    rawLines style depth name (between (style.indent depth) ls) = .ok ls := by
  have outer := isBareLine_indent style depth
  have indents := isBareLine_indent style (depth + 1)
  have blanks (depth : Nat) : ∀ c ∈ style.indent depth, isBlank c = true := fun c => isBlank_of_mem_indent
  have kept : Text.words (between (style.indent depth) ls) = ls.flatMap Text.words :=
    words_lines (blanks depth) ls
  unfold rawLines at laid ⊢
  split at laid
  · next template =>
    obtain rfl := Except.ok.inj laid
    rw [Text.words_trimLines, Text.words_lines] at kept
    rw [if_pos ((holdsTemplate_of_words kept).trans template)]
    rw [trimLines_between (newline_not_mem_indent style depth)
      (List.all_eq_true.mpr (blanks depth)) (fun _ => flat_of_mem_trimLines),
      Text.trimLines_trimLines]
  · next plain =>
    split at laid
    · next style_ =>
      subst style_
      obtain ⟨out, rests⟩ := (sheet rfl).resolve_left (by simp [visible])
      rw [rests.laid] at laid
      obtain rfl := Except.ok.inj laid
      have moved := movedLines_of_format rests.laid (style.indent (depth + 1))
      have again := Stylesheet.format_moved rests.laid rests.some rests.lined (blanks (depth + 1))
        (blanks depth)
      rw [Stylesheet.format_of_format rests.laid rests.ends, ← moved] at again
      rw [if_neg (by simp [holdsTemplate]), if_pos rfl, between, again]
    · next notStyle =>
      obtain rfl := Except.ok.inj laid
      rw [words_movedLines (blanks (depth + 1))] at kept
      rw [if_neg (by rwa [holdsTemplate_of_words kept]), if_neg notStyle,
        movedLines_between indents outer visible]

/-- The lines of raw content that shows show something. -/
theorem isBlank_between {style : Style} {depth : Nat} {name body : Text} (visible : body.isBlank = false)
    (sheet : name = "style" → SteadySheet style body) {ls : List Text}
    (laid : rawLines style depth name body = .ok ls) :
    (between (style.indent depth) ls).isBlank = false := by
  have blanks {depth : Nat} : ∀ c ∈ style.indent depth, isBlank c = true := fun c => isBlank_of_mem_indent
  have kept : Text.words (between (style.indent depth) ls) = ls.flatMap Text.words := words_lines blanks ls
  unfold rawLines at laid
  split at laid
  · obtain rfl := Except.ok.inj laid
    rw [Text.words_trimLines, Text.words_lines] at kept
    exact visible_of_words visible kept.symm
  · split at laid
    · next style_ =>
      obtain ⟨out, rests⟩ := (sheet style_).resolve_left (by simp [visible])
      rw [rests.laid] at laid
      obtain rfl := Except.ok.inj laid
      rw [words_movedLines blanks] at kept
      exact visible_of_words (isBlank_of_format rests.laid rests.some) kept.symm
    · obtain rfl := Except.ok.inj laid
      rw [words_movedLines blanks] at kept
      exact visible_of_words visible kept.symm

end StaticSite.Markup
