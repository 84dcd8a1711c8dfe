import StaticSite.Proofs.Markup.Weaving
import StaticSite.Proofs.Result

/-! # Lines of a layout

The lines of regular nodes can stand in any page: start tags that go over several lines, content that
is moved, and blocks within blocks. So can the whole layout of a markup text.
-/

namespace StaticSite.Markup

open Stylesheet (written written_append written_cons page_eq_written isBlank_of_mem_indent)

/-! ## Start tags over several lines -/

theorem isMarkupBlank_of_mem_indent {style : Style} {depth : Nat} {c : Char}
    (member : c ∈ style.indent depth) : isMarkupBlank c = true := by
  rcases Style.eq_of_mem_indent member with rfl | rfl <;> rfl

theorem appendToLast_concat (t : Text) (ls : List Text) (last : Text) :
    appendToLast t (ls ++ [last]) = ls ++ [last ++ t] := by
  induction ls with
  | nil => rfl
  | cons l rest ih =>
    have step : appendToLast t (l :: (rest ++ [last])) = l :: appendToLast t (rest ++ [last]) := by
      cases rest <;> rfl
    rw [List.cons_append, step, ih, List.cons_append]

theorem appendToLast_nil {ls : List Text} (some : ls ≠ []) : appendToLast [] ls = ls := by
  obtain ⟨before, last, rfl⟩ := List.eq_nil_or_concat ls |>.resolve_left some
  rw [List.concat_eq_append, appendToLast_concat, List.append_nil]

theorem startLines_ne_nil (style : Style) (depth : Nat) (name : Text) (attributes : Attributes)
    (ending : Text) : startLines style depth name attributes ending ≠ [] := by
  unfold startLines
  dsimp only
  split <;> simp

/-- A newline stands between a first line and the others, or behind each of them. -/
theorem newline_written (ls : List Text) :
    '\n' :: written ls = ls.flatMap ('\n' :: ·) ++ ['\n'] := by
  induction ls with
  | nil => rfl
  | cons l rest ih =>
    rw [written_cons, ih]
    simp

/-- The end of a tag on one line. -/
def tagEnding (slash : Bool) : Text := if slash then " />" else ">"

/-- The lines of a start tag are a tag, with the last line open for more. -/
theorem written_startLines (style : Style) (depth : Nat) (name : Text) (attributes : Attributes)
    (slash : Bool) : ∃ gap tail, Spacing gap tail ∧ ∀ t,
      written (appendToLast t (startLines style depth name attributes (tagEnding slash))) =
        style.indent depth ++
          (tagText name gap tail (attributes.map (attributeTag true)) slash ++ t) ++ ['\n'] := by
  unfold startLines
  dsimp only
  split
  · refine ⟨[' '], if slash then [' '] else [], ?_, fun t => ?_⟩
    · cases slash
      · exact spacing_space.1
      · exact spacing_space.2
    · have single : startTag name attributes (tagEnding slash) =
          tagText name [' '] (if slash then [' '] else []) (attributes.map (attributeTag true))
            slash := by
        cases slash
        · exact (startTag_eq name attributes).1
        · exact (startTag_eq name attributes).2
      rw [single]
      simp [appendToLast, written]
  · have indents (depth : Nat) : ∀ c ∈ '\n' :: style.indent depth, isMarkupBlank c = true :=
      List.forall_mem_cons.mpr ⟨by decide, fun c member => isMarkupBlank_of_mem_indent member⟩
    refine ⟨'\n' :: style.indent (depth + 1), '\n' :: style.indent depth,
      ⟨by simp, indents _, indents _⟩, fun t => ?_⟩
    have ending : (tagEnding slash).trim = endingText slash := by
      cases slash <;> decide
    have slots : ((attributeTexts attributes).map (style.indent (depth + 1) ++ ·)).flatMap ('\n' :: ·) =
        (attributes.map (attributeTag true)).flatMap
          fun a => '\n' :: style.indent (depth + 1) ++ a.text := by
      rw [attributeTexts, List.flatMap_map, List.flatMap_map, List.flatMap_map]
      refine List.flatMap_congr fun a _ => ?_
      rw [(text_attributeTag a).1]
      rfl
    have first : written ((style.indent depth ++ '<' :: name) ::
        (attributeTexts attributes).map (style.indent (depth + 1) ++ ·)) =
          style.indent depth ++ '<' :: name ++
            ('\n' :: written ((attributeTexts attributes).map (style.indent (depth + 1) ++ ·))) := by
      simp [written]
    rw [appendToLast_concat, written_append, first, newline_written, slots, ending, tagText]
    simp [written]

/-- An element with its content on one line. -/
theorem written_aroundLine (style : Style) (depth : Nat) (name : Text) (attributes : Attributes) :
    ∃ gap tail, Spacing gap tail ∧ ∀ x,
      written (appendToLast (x ++ endTag name) (startLines style depth name attributes ">")) =
        style.indent depth ++ (tagText name gap tail (attributes.map (attributeTag true)) false ++ x ++
          endTag name) ++ ['\n'] := by
  obtain ⟨gap, tail, spacing, text⟩ := written_startLines style depth name attributes false
  refine ⟨gap, tail, spacing, fun x => ?_⟩
  rw [List.append_assoc (tagText ..)]
  exact text (x ++ endTag name)

/-- An element with its content on lines of its own. -/
theorem written_aroundLines (style : Style) (depth : Nat) (name : Text) (attributes : Attributes)
    (ls : List Text) : ∃ gap tail, Spacing gap tail ∧
      written (startLines style depth name attributes ">" ++ ls ++
        [style.indent depth ++ endTag name]) = style.indent depth ++
          (tagText name gap tail (attributes.map (attributeTag true)) false ++
            ('\n' :: (written ls ++ style.indent depth)) ++ endTag name) ++ ['\n'] := by
  obtain ⟨gap, tail, spacing, text⟩ := written_startLines style depth name attributes false
  have opening : written (startLines style depth name attributes ">") = _ ++ ['\n'] :=
    appendToLast_nil (startLines_ne_nil style depth name attributes _) ▸ text []
  refine ⟨gap, tail, spacing, ?_⟩
  rw [written_append, written_append, opening]
  simp [written]

/-! ## Content that is moved -/

theorem words_written (ls : List Text) (t : Text) :
    Text.words (written ls ++ t) = ls.flatMap Text.words ++ Text.words t := by
  induction ls with
  | nil => rfl
  | cons l rest ih =>
    rw [written_cons, List.append_assoc, List.cons_append, Text.words,
      Text.wordsFrom_append (by decide), ih, List.flatMap_cons, List.append_assoc]
    rfl

/-- The words of content that stands on lines of its own. -/
theorem words_lines {indent : Text} (blanks : ∀ c ∈ indent, isBlank c = true) (ls : List Text) :
    Text.words ('\n' :: (written ls ++ indent)) = ls.flatMap Text.words := by
  rw [Text.words_blank_cons (by decide), words_written, Text.words_of_blanks blanks, List.append_nil]

/-- The lines of raw content have no end tag and can be laid out. -/
theorem rawLines_sound {style : Style} {depth : Nat} {name body : Text} (raw : name ∈ rawElements)
    (quiet : RawContent name body) (sheet : name = "style" → SoundSheet style body)
    (visible : body.isBlank = false) {lines : List Text}
    (laid : rawLines style depth name body = .ok lines) :
    RawContent name ('\n' :: (written lines ++ style.indent depth)) ∧
      (name = "style" → FitSheet ('\n' :: (written lines ++ style.indent depth))) := by
  have words : Text.words ('\n' :: (written lines ++ style.indent depth)) = lines.flatMap Text.words :=
    words_lines (fun c => isBlank_of_mem_indent) lines
  have moved (t : Text) : (movedLines (style.indent (depth + 1)) t).flatMap Text.words = Text.words t :=
    words_movedLines (fun c => isBlank_of_mem_indent) t
  unfold rawLines at laid
  split at laid
  · next template =>
    obtain rfl := Except.ok.inj laid
    have notStyle : name ≠ "style" := by
      rintro rfl
      simp [holdsTemplate] at template
    refine ⟨quiet.of_words raw ?_, fun same => absurd same notStyle⟩
    rw [words, Text.words_trimLines, Text.words_lines]
  · split at laid
    · next style_ =>
      obtain ⟨out, formatted, ends⟩ := (sheet style_).resolve_left (by simp [visible])
      rw [formatted] at laid
      obtain rfl := Except.ok.inj laid
      have same := (moved out).symm.trans words.symm
      have again := Stylesheet.accepted_of_format formatted
      exact ⟨(style_ ▸ ends).of_words raw same, fun _ => .inr (again.of_words same)⟩
    · next notStyle =>
      obtain rfl := Except.ok.inj laid
      exact ⟨quiet.of_words raw ((moved body).symm.trans words.symm), fun same => absurd same notStyle⟩

/-! ## Lines of nodes -/

theorem woven_indent (style : Style) (depth : Nat) : Woven (style.indent depth) :=
  .of_blanks fun _ => isBlank_of_mem_indent

theorem woven_line (style : Style) (depth : Nat) {t : Text} (woven : Woven t) :
    Woven (written [style.indent depth ++ t]) := by
  have line : written [style.indent depth ++ t] = style.indent depth ++ t ++ ['\n'] := by
    simp [written]
  rw [line]
  exact ((woven_indent style depth).append woven).append (.of_blanks (by decide))

section Elements

variable {style : Style} {depth : Nat} {name : Text} {attributes : Attributes} {children : List Node}
variable (named : SoundName name) (ordered : SoundAttributes attributes)
variable (element : RegularElement name attributes)
include named ordered element

theorem woven_slashLines (closing : selfClosingElements.elem name = true) :
    Woven (written (startLines style depth name attributes " />")) := by
  obtain ⟨gap, tail, spacing, text⟩ := written_startLines style depth name attributes true
  have tag := woven_slashElement named ordered element.separate spacing closing
  have line := text []
  rw [appendToLast_nil (startLines_ne_nil style depth name attributes _), List.append_nil] at line
  exact line ▸ (((woven_indent style depth).append tag).append (.of_blanks (by decide)))

/-- An element with its content on one line stands for itself when the content does. -/
theorem woven_aroundLine {x : Text}
    (raw : name ∈ rawElements → RawContent name x ∧ (name = "style" → FitSheet x))
    (closing : name ∈ selfClosingElements → x = []) (inside : name ∉ rawElements → Whole x) :
    Woven (written (appendToLast (x ++ endTag name) (startLines style depth name attributes ">"))) := by
  obtain ⟨gap, tail, spacing, text⟩ := written_aroundLine style depth name attributes
  have whole := woven_element named ordered element.separate spacing element.closable raw closing
    inside
  exact text x ▸ (((woven_indent style depth).append whole).append (.of_blanks (by decide)))

/-- An element with its content on lines of its own stands for itself when the content does. -/
theorem woven_aroundLines {ls : List Text}
    (raw : name ∈ rawElements → RawContent name ('\n' :: (written ls ++ style.indent depth)) ∧
      (name = "style" → FitSheet ('\n' :: (written ls ++ style.indent depth))))
    (notClosing : name ∉ selfClosingElements) (inside : name ∉ rawElements → Woven (written ls)) :
    Woven (written (startLines style depth name attributes ">" ++ ls ++
      [style.indent depth ++ endTag name])) := by
  obtain ⟨gap, tail, spacing, lines⟩ := written_aroundLines style depth name attributes ls
  have whole := woven_element named ordered element.separate spacing element.closable raw
    (fun closes => absurd closes notClosing) fun notRaw =>
      (Woven.blank (by decide) ((inside notRaw).append (woven_indent style depth))).whole
  exact lines ▸ (((woven_indent style depth).append whole).append (.of_blanks (by decide)))

end Elements

/-! ## What the layout does to a node -/

/-- The lines an element is laid out in: a start tag that needs no end tag, tags around content on
one line, or tags on lines of their own around the lines of the content. -/
inductive ElementLines (style : Style) (depth : Nat) (name : Text) (attributes : Attributes)
    (children : List Node) : List Text → Prop
  | void (void : voidElements.elem name = true) :
      ElementLines style depth name attributes children (startLines style depth name attributes " />")
  | verbatim (ends : ¬ voidElements.elem name = true) (counts : verbatimElements.elem name = true) :
      ElementLines style depth name attributes children
        (appendToLast (verbatimAll false children ++ endTag name)
          (startLines style depth name attributes ">"))
  | rawBlank (ends : ¬ voidElements.elem name = true) (other : ¬ verbatimElements.elem name = true)
      (raw : rawElements.elem name = true) (blank : (rawBody children).isBlank = true) :
      ElementLines style depth name attributes children
        (appendToLast (endTag name) (startLines style depth name attributes ">"))
  | raw {ls : List Text} (ends : ¬ voidElements.elem name = true)
      (other : ¬ verbatimElements.elem name = true) (raw : rawElements.elem name = true)
      (shows : ¬ (rawBody children).isBlank = true)
      (made : rawLines style depth name (rawBody children) = .ok ls) :
      ElementLines style depth name attributes children
        (startLines style depth name attributes ">" ++ ls ++ [style.indent depth ++ endTag name])
  | line (ends : ¬ voidElements.elem name = true) (other : ¬ verbatimElements.elem name = true)
      (plain : ¬ rawElements.elem name = true) (keeps : keepsInline name children = true) :
      ElementLines style depth name attributes children
        (appendToLast ((inlineAll children).trimSpaces ++ endTag name)
          (startLines style depth name attributes ">"))
  | blank (ends : ¬ voidElements.elem name = true) (other : ¬ verbatimElements.elem name = true)
      (plain : ¬ rawElements.elem name = true) (breaks : ¬ keepsInline name children = true)
      (blank : children.all Node.isBlank = true) :
      ElementLines style depth name attributes children
        (appendToLast (endTag name) (startLines style depth name attributes ">"))
  | block {ls : List Text} (ends : ¬ voidElements.elem name = true)
      (other : ¬ verbatimElements.elem name = true) (plain : ¬ rawElements.elem name = true)
      (breaks : ¬ keepsInline name children = true) (shows : ¬ children.all Node.isBlank = true)
      (made : allLines style (depth + 1) children = .ok ls) :
      ElementLines style depth name attributes children
        (startLines style depth name attributes ">" ++ ls ++ [style.indent depth ++ endTag name])

section Inversion

variable {style : Style} {depth : Nat}

theorem elementLines_of_nodeLines {name : Text} {attributes : Attributes} {children : List Node}
    {lines : List Text} (laid : nodeLines style depth (.element name attributes children) = .ok lines) :
    ElementLines style depth name attributes children lines := by
  rw [nodeLines] at laid
  dsimp only at laid
  by_cases void : voidElements.elem name = true
  · rw [if_pos void] at laid
    obtain rfl := Except.ok.inj laid
    exact .void void
  rw [if_neg void] at laid
  by_cases counts : verbatimElements.elem name = true
  · rw [if_pos counts] at laid
    obtain rfl := Except.ok.inj laid
    exact .verbatim void counts
  rw [if_neg counts] at laid
  by_cases raw : rawElements.elem name = true
  · rw [if_pos raw] at laid
    by_cases blank : (rawBody children).isBlank = true
    · rw [if_pos blank] at laid
      obtain rfl := Except.ok.inj laid
      exact .rawBlank void counts raw blank
    · rw [if_neg blank] at laid
      obtain ⟨ls, made, rfl⟩ := exists_of_map laid
      exact .raw void counts raw blank made
  rw [if_neg raw] at laid
  by_cases keeps : keepsInline name children = true
  · rw [if_pos keeps] at laid
    obtain rfl := Except.ok.inj laid
    exact .line void counts raw keeps
  rw [if_neg keeps] at laid
  by_cases blank : children.all Node.isBlank = true
  · rw [if_pos blank] at laid
    obtain rfl := Except.ok.inj laid
    exact .blank void counts raw keeps blank
  · rw [if_neg blank] at laid
    obtain ⟨ls, made, rfl⟩ := exists_of_map laid
    exact .block void counts raw keeps blank made

theorem exists_of_allLines_cons {n : Node} {rest : List Node} {lines : List Text}
    (laid : allLines style depth (n :: rest) = .ok lines) : ∃ first others,
      nodeLines style depth n = .ok first ∧ allLines style depth rest = .ok others ∧
        lines = first ++ others := by
  rw [allLines] at laid
  obtain ⟨first, here, laid⟩ := exists_of_bind_eq_ok laid
  obtain ⟨others, there, laid⟩ := exists_of_bind_eq_ok laid
  exact ⟨first, others, here, there, (Except.ok.inj laid).symm⟩

end Inversion

/-! ## Nodes in lines -/

/-- The lines of an element stand for themselves when those of its content do. -/
theorem woven_elementLines {style : Style} {depth : Nat} {name : Text} {attributes : Attributes}
    {children : List Node} {counts : Bool} (sound : (Node.element name attributes children).Sound counts)
    (regular : (Node.element name attributes children).Regular style)
    (content : ∀ {lines}, allLines style (depth + 1) children = .ok lines → Woven (written lines))
    {lines : List Text} (laid : nodeLines style depth (.element name attributes children) = .ok lines) :
    Woven (written lines) := by
  obtain ⟨⟨named, ordered⟩, -, ⟨raw, closing⟩, below⟩ := sound
  obtain ⟨element, sheet, others⟩ := regular
  have around {x : Text} := @woven_aroundLine style depth name attributes named ordered element x
  have apart (plain : ¬ rawElements.elem name = true) : name ∉ rawElements := by simpa using plain
  cases elementLines_of_nodeLines laid with
  | void void =>
    exact woven_slashLines named ordered element
      (List.elem_iff.mpr (selfClosing_of_void name (List.elem_iff.mp void)))
  | verbatim _ counts =>
    refine around (fun isRaw => ?_) (fun closes => ?_) fun _ => (woven_verbatimAll below others).whole
    · rw [(notVerbatim_of_mem_rawElements isRaw).1] at counts
      cases counts
    · rw [closing closes]
      rfl
  | rawBlank _ _ isRaw =>
    exact around (x := []) (fun _ => ⟨rfl, fun _ => .inl rfl⟩) (fun _ => rfl) fun notRaw =>
      absurd (List.elem_iff.mp isRaw) notRaw
  | raw _ _ isRaw shows made =>
    have member := List.elem_iff.mp isRaw
    have notClosing : name ∉ selfClosingElements := by
      simpa using (notVerbatim_of_mem_rawElements member).2
    exact woven_aroundLines named ordered element (fun _ => rawLines_sound member
      (raw member).rawContent sheet (by simpa using shows) made) notClosing
      fun notRaw => absurd member notRaw
  | line _ _ plain =>
    refine around (fun member => absurd member (apart plain)) (fun closes => ?_) fun _ =>
      (woven_inlineAll below others).trimSpaces.whole
    rw [closing closes]
    rfl
  | blank _ _ plain =>
    exact around (x := []) (fun member => absurd member (apart plain)) (fun _ => rfl) fun _ => .nil
  | block _ _ plain _ shows made =>
    have notClosing : name ∉ selfClosingElements := by
      intro closes
      rw [closing closes] at shows
      exact shows rfl
    exact woven_aroundLines named ordered element (fun member => absurd member (apart plain))
      notClosing fun _ => content made

mutual

/-- The lines of a node stand for themselves. -/
theorem woven_nodeLines {style : Style} {depth : Nat} : ∀ {n : Node} {counts : Bool},
    n.Sound counts → n.Regular style → ∀ {lines}, nodeLines style depth n = .ok lines →
    Woven (written lines)
  | .text t, _, _, _, lines, laid => by
    rw [nodeLines] at laid
    obtain rfl := Except.ok.inj laid
    split
    · exact .nil
    · refine woven_line style depth (.trimSpaces ?_)
      rw [inline]
      exact woven_escapeContent _
  | .comment _, _, sound, regular, lines, laid | .doctype _, _, sound, regular, lines, laid
  | .data _, _, sound, regular, lines, laid | .declaration _, _, sound, regular, lines, laid
  | .instruction _, _, sound, regular, lines, laid => by
    rw [nodeLines] at laid
    · obtain rfl := Except.ok.inj laid
      exact woven_line style depth (woven_inline sound regular)
    all_goals simp
  | .element name attributes children, _, sound, regular, _, laid =>
    woven_elementLines sound regular
      (fun below => woven_allLines sound.2.2.2 regular.2.2 below) laid

/-- The lines of nodes stand for themselves. -/
theorem woven_allLines {style : Style} {depth : Nat} : ∀ {ns : List Node} {counts : Bool},
    SoundAll counts ns → RegularAll style ns → ∀ {lines}, allLines style depth ns = .ok lines →
    Woven (written lines)
  | [], _, _, _, lines, laid => by
    rw [allLines] at laid
    obtain rfl := Except.ok.inj laid
    exact .nil
  | n :: rest, _, sound, regular, lines, laid => by
    obtain ⟨here, later, first, others, rfl⟩ := exists_of_allLines_cons laid
    rw [written_append]
    exact (woven_nodeLines sound.1 regular.1 first).append
      (woven_allLines sound.2 regular.2 others)

end

/-! ## Layouts of texts -/

/-- The layout of regular nodes stands for itself. -/
theorem woven_layoutLines {style : Style} {ns : List Node} (sound : SoundAll false ns)
    (regular : RegularAll style ns) {lines : List Text} (laid : layoutLines style ns = .ok lines) :
    Woven (Text.page lines) := by
  rw [page_eq_written]
  unfold layoutLines at laid
  split at laid
  · obtain rfl := Except.ok.inj laid
    split
    · exact .nil
    · exact woven_line .standard 0 (woven_inlineAll sound regular).trimSpaces
  · exact woven_allLines sound regular laid

/-- The layout of a text is the page of the lines of its nodes. -/
theorem exists_of_format {style : Style} {t out : Text} (laid : format style t = .ok out) :
    ∃ ns lines, read t = .ok ns ∧ layoutLines style ns = .ok lines ∧ Text.page lines = out := by
  obtain ⟨ns, nodes, laid⟩ := exists_of_bind_eq_ok laid
  obtain ⟨lines, made, page⟩ := exists_of_map laid
  exact ⟨ns, lines, nodes, made, page⟩

/-- The layout of a markup text of regular nodes stands for itself. -/
theorem woven_format {style : Style} {t out : Text} (laid : format style t = .ok out)
    (regular : ∀ ns, read t = .ok ns → RegularAll style ns) : Woven out := by
  obtain ⟨ns, lines, nodes, made, rfl⟩ := exists_of_format laid
  exact woven_layoutLines (sound_read nodes).2 (regular ns nodes) made

/-- A text that can stand in any page can be laid out. -/
theorem Whole.exists_format {t : Text} (whole : Whole t) (style : Style) :
    ∃ out, format style t = .ok out := by
  obtain ⟨q, reads, onward⟩ := whole .start (.of_nil rfl)
  have ends := reads false []
  rw [List.append_nil] at ends
  have frames : q.flush.frames = [] := by
    rw [Progress.flush_eq]
    exact onward.frames
  have nodes : read t = .ok q.flush.nodes.reverse := by
    rw [read, tokens, ends]
    simp only [tokensFrom, readFrom, Progress.complete, frames]
    rfl
  have fit : FitAll q.flush.nodes.reverse := by
    have all := fitAll_append.mpr ⟨fitAll_pendingNodes q, onward.fit trivial⟩
    rw [Progress.flush_eq]
    rw [fitAll_iff] at all ⊢
    simpa [or_comm] using all
  obtain ⟨lines, laid⟩ := exists_layoutLines style fit
  refine ⟨Text.page lines, ?_⟩
  rw [format, nodes]
  change (layoutLines style _).map Text.page = _
  rw [laid]
  rfl

end StaticSite.Markup
