import StaticSite.Proofs.Markup.Moving
import StaticSite.Proofs.Markup.Whole
import StaticSite.Proofs.Text.Squeeze

/-! # Layouts in other markup

The layout of markup can stand in any page when its nodes are regular: an element is read back under
the tags that are written for it, a declaration does not end early, and each style element has a
layout, which holds no end tag.
-/

namespace StaticSite.Markup

/-! ## Regular nodes -/

/-- Whether the content of a style element is blank or has a layout without an end tag. -/
def SoundSheet (style : Style) (t : Text) : Prop :=
  t.isBlank = true ∨ ∃ out, Stylesheet.format style t = .ok out ∧ RawContent "style" out

theorem SoundSheet.fit {style : Style} {t : Text} (sound : SoundSheet style t) : FitSheet t :=
  sound.imp_right fun ⟨out, laid, _⟩ => ⟨style, out, laid⟩

/-- An element that is read back under the tags that are written for it. -/
structure RegularElement (name : Text) (attributes : Attributes) : Prop where
  closable : isClosable name = true
  separate : TagAttribute.Separate (attributes.map (attributeTag true))

mutual

/-- Whether a node can stand in any page when it is laid out. -/
def Node.Regular (style : Style) : Node → Prop
  | .element name attributes children =>
      RegularElement name attributes ∧
        (name = "style" → SoundSheet style (rawBody children)) ∧ RegularAll style children
  | .declaration t => '>' ∉ t
  | _ => True

/-- Whether nodes can stand in any page when they are laid out. -/
def RegularAll (style : Style) : List Node → Prop
  | [] => True
  | node :: rest => node.Regular style ∧ RegularAll style rest

end

section Decidable

instance (name t : Text) : Decidable (RawContent name t) :=
  inferInstanceAs (Decidable ((Mark.run name .outside t).isSome = true))

/-- Decides whether attributes can be told apart. -/
def TagAttribute.decideSeparate : (as : List TagAttribute) → Decidable (Separate as)
  | [] | [_] => .isTrue trivial
  | a :: b :: rest =>
      have := decideSeparate (b :: rest)
      inferInstanceAs (Decidable ((a.value = none → b.name.head? ≠ some '=') ∧ Separate (b :: rest)))

instance (as : List TagAttribute) : Decidable (TagAttribute.Separate as) :=
  TagAttribute.decideSeparate as

theorem regularElement_iff {name : Text} {attributes : Attributes} :
    RegularElement name attributes ↔
      isClosable name = true ∧ TagAttribute.Separate (attributes.map (attributeTag true)) :=
  ⟨fun r => ⟨r.closable, r.separate⟩, fun ⟨a, b⟩ => ⟨a, b⟩⟩

instance (name : Text) (attributes : Attributes) : Decidable (RegularElement name attributes) :=
  decidable_of_iff _ regularElement_iff.symm

theorem soundSheet_iff {style : Style} {t : Text} : SoundSheet style t ↔ t.isBlank = true ∨
    ∃ out ∈ (Stylesheet.format style t).toOption, RawContent "style" out := by
  rw [SoundSheet]
  cases Stylesheet.format style t <;> simp [Except.toOption]

instance (style : Style) (t : Text) : Decidable (SoundSheet style t) :=
  decidable_of_iff _ soundSheet_iff.symm

mutual

/-- Decides whether a node is regular. -/
def Node.decideRegular (style : Style) : (n : Node) → Decidable (n.Regular style)
  | .element name attributes children =>
      have := decideRegularAll style children
      inferInstanceAs (Decidable (RegularElement name attributes ∧
        (name = "style" → SoundSheet style (rawBody children)) ∧ RegularAll style children))
  | .declaration t => inferInstanceAs (Decidable ('>' ∉ t))
  | .text _ | .comment _ | .doctype _ | .data _ | .instruction _ => .isTrue trivial

/-- Decides whether nodes are regular. -/
def decideRegularAll (style : Style) : (ns : List Node) → Decidable (RegularAll style ns)
  | [] => .isTrue trivial
  | n :: rest =>
      have := n.decideRegular style
      have := decideRegularAll style rest
      inferInstanceAs (Decidable (n.Regular style ∧ RegularAll style rest))

end

instance (style : Style) (ns : List Node) : Decidable (RegularAll style ns) :=
  decideRegularAll style ns

end Decidable

/-! ## What nodes are written as -/

theorem verbatim_doctype (raw : Bool) (t : Text) :
    verbatim raw (.doctype t) = "<!DOCTYPE " ++ t ++ ">\n" := rfl

theorem verbatim_declaration (raw : Bool) (t : Text) :
    verbatim raw (.declaration t) = "<?" ++ t ++ "?>" := rfl

/-- Tags that are written on one line, with values left out where they are empty. -/
theorem startTag_eq (name : Text) (attributes : Attributes) :
    startTag name attributes ">" = tagText name [' '] [] (attributes.map (attributeTag true)) false ∧
      startTag name attributes " />" =
        tagText name [' '] [' '] (attributes.map (attributeTag true)) true := by
  have slots : (attributeTexts attributes).flatMap (' ' :: ·) =
      (attributes.map (attributeTag true)).flatMap (fun a => [' '] ++ a.text) := by
    rw [attributeTexts, List.flatMap_map, List.flatMap_map]
    refine List.flatMap_congr fun a _ => ?_
    rw [(text_attributeTag a).1]
    rfl
  constructor
  · rw [startTag, tagText, slots, List.append_nil]
    rfl
  · have ending : " />".toList = [' '] ++ endingText true := rfl
    rw [startTag, tagText, slots, ending, ← List.append_assoc]

/-- Tags that are written where white space counts. -/
theorem verbatimTag_eq (name : Text) (attributes : Attributes) (slash : Bool) :
    '<' :: name ++ verbatimAttributes attributes ++ endingText slash =
      tagText name [' '] [] ((sortAttributes attributes).map (attributeTag false)) slash := by
  have slots : verbatimAttributes attributes =
      ((sortAttributes attributes).map (attributeTag false)).flatMap (fun a => [' '] ++ a.text) := by
    rw [verbatimAttributes, List.flatMap_map]
    refine List.flatMap_congr fun a _ => ?_
    rw [(text_attributeTag a).2]
    rfl
  rw [tagText, slots, List.append_nil]

theorem verbatim_element (raw : Bool) (name : Text) (attributes : Attributes) (children : List Node) :
    verbatim raw (.element name attributes children) =
      if children.isEmpty && selfClosingElements.elem name then
        tagText name [' '] [] ((verbatimOrder name attributes).map (attributeTag false)) true
      else
        tagText name [' '] [] ((verbatimOrder name attributes).map (attributeTag false)) false ++
          verbatimAll (rawElements.elem name) children ++ endTag name := by
  rw [verbatimOrder, ← verbatimTag_eq, ← verbatimTag_eq]
  simp only [endTag, ← List.append_assoc]
  rfl

/-- The content of a raw element has no end tag. -/
theorem RawChildren.rawContent {name : Text} {children : List Node} (raw : RawChildren name children) :
    RawContent name (rawBody children) := by
  obtain ⟨content, quiet, rfl⟩ := raw
  by_cases empty : content = []
  · subst empty
    exact quiet
  · rw [if_neg (by simpa using empty), rawBody_text]
    exact quiet

/-! ## Ends -/

theorem Solid.of_eq {x y z : Text} (starts : x = '<' :: y) (ends : x = z ++ ['>']) : Solid x :=
  ⟨⟨'<', by simp [starts], by decide⟩, ⟨'>', by simp [ends], by decide⟩⟩

/-- What stands between solid texts does not matter. -/
theorem Solid.between {x y : Text} (first : Solid x) (second : Solid y) (t : Text) :
    Solid (x ++ t ++ y) := by
  obtain ⟨c, head, visible⟩ := first.head
  obtain ⟨d, last, shown⟩ := second.last
  obtain ⟨more, rfl⟩ := List.head?_eq_some_iff.mp head
  obtain ⟨before, rfl⟩ := List.getLast?_eq_some_iff.mp last
  refine ⟨⟨c, rfl, visible⟩, ⟨d, ?_, shown⟩⟩
  rw [← List.append_assoc]
  exact List.getLast?_concat ..

theorem solid_tagText (name gap tail : Text) (as : List TagAttribute) (slash : Bool) :
    Solid (tagText name gap tail as slash) := by
  cases slash with
  | false => exact .of_eq rfl rfl
  | true =>
    refine .of_eq rfl (z := '<' :: name ++ as.flatMap (fun a => gap ++ a.text) ++ tail ++ ['/']) ?_
    rw [tagText, List.append_assoc _ ['/'] ['>']]
    rfl

theorem solid_endTag (name : Text) : Solid (endTag name) := .of_eq rfl rfl

/-! ## Elements -/

theorem spacing_space : Spacing [' '] [] ∧ Spacing [' '] [' '] :=
  ⟨⟨by simp, by decide, by simp⟩, ⟨by simp, by decide, by decide⟩⟩

section Elements

variable {name : Text} {attributes : Attributes} (named : SoundName name)
variable (sound : SoundAttributes attributes) {bare : Bool}
variable (separate : TagAttribute.Separate (attributes.map (attributeTag bare)))
variable {gap tail : Text} (spacing : Spacing gap tail)
include named sound separate spacing

/-- A tag with a slash at its end stands for itself. -/
theorem woven_slashElement (closing : selfClosingElements.elem name = true) :
    Woven (tagText name gap tail (attributes.map (attributeTag bare)) true) :=
  .of_piece (solid_tagText ..)
    (whole_slashElement sound separate spacing named.toTagName named.lower closing)

/-- An element stands for itself between its tags when its content does. -/
theorem woven_element (closable : isClosable name = true) {x : Text}
    (raw : name ∈ rawElements → RawContent name x ∧ (name = "style" → FitSheet x))
    (closing : name ∈ selfClosingElements → x = []) (inside : name ∉ rawElements → Whole x) :
    Woven (tagText name gap tail (attributes.map (attributeTag bare)) false ++ x ++ endTag name) := by
  refine .of_piece ((solid_tagText ..).between (solid_endTag name) x) ?_
  have elementName : ElementName name := ⟨named.toTagName, named.lower, closable⟩
  by_cases isRaw : name ∈ rawElements
  · obtain ⟨quiet, fit⟩ := raw isRaw
    exact whole_rawElement sound separate spacing isRaw quiet fit
  · by_cases closes : name ∈ selfClosingElements
    · rw [closing closes, List.append_nil]
      exact whole_selfClosingElement sound separate spacing elementName (List.elem_iff.mpr closes)
    · exact whole_element sound separate spacing elementName (by simpa using isRaw)
        (by simpa using closes) (inside isRaw)

end Elements

/-! ## Nodes without children -/

theorem woven_escapeContent (t : Text) : Woven (Text.escapeContent t) := by
  induction t with
  | nil => exact .nil
  | cons c rest ih =>
    have split : Text.escapeContent (c :: rest) =
        Text.replaceEach Text.contentReference [c] ++ Text.escapeContent rest :=
      Text.replaceEach_append _ [c] rest
    rw [split]
    by_cases special : c ∈ ['&', '<', '>']
    · refine .piece ?_ (.escaped readsBack_contentReference [c]) ih
      simp only [List.mem_cons, List.not_mem_nil, or_false] at special
      rcases special with rfl | rfl | rfl <;> exact ⟨⟨'&', rfl, rfl⟩, ⟨';', rfl, rfl⟩⟩
    · have single : Text.replaceEach Text.contentReference [c] = [c] := by
        simp [Text.replaceEach, contentReference_eq_none special]
      by_cases blank : isBlank c = true
      · rw [single]
        exact .blank blank ih
      · refine .piece ?_ (.escaped readsBack_contentReference [c]) ih
        rw [single]
        have visible : isBlank c = false := by simpa using blank
        exact ⟨⟨c, rfl, visible⟩, ⟨c, rfl, visible⟩⟩

theorem woven_comment {t : Text} (content : CommentContent t) : Woven ("<!--" ++ t ++ "-->") :=
  .of_piece (.between (x := "<!--") (y := "-->") ⟨⟨'<', rfl, rfl⟩, ⟨'-', rfl, rfl⟩⟩
    ⟨⟨'-', rfl, rfl⟩, ⟨'>', rfl, rfl⟩⟩ t)
    (.of_add .comment (fun _ => rfl) (fun _ => trivial) (reads_comment content))

theorem woven_doctype {t : Text} (inside : '>' ∉ t) : Woven ("<!DOCTYPE " ++ t ++ ">") :=
  .of_piece (.of_eq rfl rfl) (.of_add .doctype (fun _ => rfl) (fun _ => trivial) (reads_doctype inside))

theorem woven_instruction {t : Text} (inside : '>' ∉ t) : Woven ("<?" ++ t ++ ">") :=
  .of_piece (.of_eq rfl rfl) (.of_add .instruction (fun _ => rfl) (fun _ => trivial) (reads_instruction inside))

theorem woven_data {t : Text} (content : DataContent t) : Woven ("<![CDATA[" ++ t ++ "]]>") :=
  .of_piece (.between (x := "<![CDATA[") (y := "]]>") ⟨⟨'<', rfl, rfl⟩, ⟨'[', rfl, rfl⟩⟩
    ⟨⟨']', rfl, rfl⟩, ⟨'>', rfl, rfl⟩⟩ t)
    (.of_add .data (fun _ => rfl) (fun _ => trivial) (reads_data content))

theorem trim_isInfix (t : Text) : t.trim <:+: t :=
  ((List.rdropWhile_prefix _ _).isInfix).trans (List.dropWhile_suffix _).isInfix

theorem woven_commentText {t : Text} (content : CommentContent t) : Woven (commentText t) := by
  rw [commentText]
  split
  · exact woven_comment (t := []) (commentContent_of_not_mem (by simp))
  · have spaced := woven_comment (content.of_infix (trim_isInfix t)).spaced
    simpa using spaced

theorem dropDoctypeKeyword_suffix (t : Text) : dropDoctypeKeyword t <:+ t := by
  unfold dropDoctypeKeyword
  split
  · exact (List.dropWhile_suffix _).trans (List.drop_suffix 7 t)
  · exact List.suffix_refl t

theorem not_mem_doctype {t : Text} (inside : '>' ∉ t) : '>' ∉ dropDoctypeKeyword (collapse t).trim := by
  intro member
  rcases Text.mem_of_mem_squeeze ((trim_isInfix _).subset ((dropDoctypeKeyword_suffix _).subset member)) with
    here | space
  · exact inside here
  · cases space

theorem woven_doctypeText {t : Text} (inside : '>' ∉ t) : Woven (doctypeText t) :=
  woven_doctype (not_mem_doctype inside)

/-! ## Nodes on one line -/

mutual

/-- A node that is written as it is stands for itself. -/
theorem woven_verbatim {style : Style} : ∀ {n : Node} {counts : Bool}, n.Sound counts →
    n.Regular style → Woven (verbatim false n)
  | .text t, _, _, _ => woven_escapeContent t
  | .comment t, _, sound, _ => woven_comment sound.1
  | .doctype t, _, sound, _ => by
    rw [verbatim_doctype]
    have kept := (woven_doctype sound.1).append (.of_blanks (t := ['\n']) (by decide))
    simpa using kept
  | .data t, _, sound, _ => woven_data sound.1
  | .declaration t, _, _, regular => by
    rw [verbatim_declaration]
    have plain : '>' ∉ t := regular
    have inside : '>' ∉ t ++ ['?'] := by simpa using plain
    simpa using woven_instruction inside
  | .instruction t, _, sound, _ => woven_instruction sound.1
  | .element name attributes children, _, sound, regular => by
    obtain ⟨⟨named, ordered⟩, -, ⟨raw, closing⟩, below⟩ := sound
    obtain ⟨element, sheet, others⟩ := regular
    have verbatimSound := ordered.verbatimOrder name
    rw [verbatim_element]
    by_cases slash : (children.isEmpty && selfClosingElements.elem name) = true
    · rw [if_pos slash]
      exact woven_slashElement named verbatimSound (separate_attributeTag _) spacing_space.1
        (Bool.and_eq_true_iff.mp slash).2
    · rw [if_neg slash]
      have notClosing : name ∉ selfClosingElements := by
        intro closes
        rw [closing closes, List.elem_iff.mpr closes] at slash
        exact slash rfl
      refine woven_element named verbatimSound (separate_attributeTag _) spacing_space.1
        element.closable (fun isRaw => ?_) (fun closes => absurd closes notClosing) fun notRaw => ?_
      · rw [List.elem_iff.mpr isRaw]
        exact ⟨(raw isRaw).rawContent, fun same => (sheet same).fit⟩
      · have plain : rawElements.elem name = false := by simpa using notRaw
        rw [plain]
        exact (woven_verbatimAll below others).whole

/-- Nodes that are written as they are stand for themselves. -/
theorem woven_verbatimAll {style : Style} : ∀ {ns : List Node} {counts : Bool}, SoundAll counts ns →
    RegularAll style ns → Woven (verbatimAll false ns)
  | [], _, _, _ => .nil
  | _ :: _, _, sound, regular =>
    (woven_verbatim sound.1 regular.1).append (woven_verbatimAll sound.2 regular.2)

end

mutual

/-- A node that is written on one line stands for itself. -/
theorem woven_inline {style : Style} : ∀ {n : Node} {counts : Bool}, n.Sound counts →
    n.Regular style → Woven (inline n)
  | .text t, _, _, _ => by
    rw [inline]
    exact woven_escapeContent _
  | .comment t, _, sound, _ => by
    rw [inline]
    exact woven_commentText sound.1
  | .doctype t, _, sound, _ => by
    rw [inline]
    exact woven_doctypeText sound.1
  | .data t, _, sound, regular => by
    rw [inline]
    · exact woven_verbatim sound regular
    all_goals simp
  | .declaration t, _, sound, regular => by
    rw [inline]
    · exact woven_verbatim sound regular
    all_goals simp
  | .instruction t, _, sound, regular => by
    rw [inline]
    · exact woven_verbatim sound regular
    all_goals simp
  | .element name attributes children, _, sound, regular => by
    obtain ⟨⟨named, ordered⟩, -, ⟨raw, closing⟩, below⟩ := sound
    obtain ⟨element, sheet, others⟩ := regular
    rw [inline]
    by_cases void : voidElements.elem name = true
    · rw [if_pos void, (startTag_eq ..).2]
      exact woven_slashElement named ordered element.separate spacing_space.2
        (List.elem_iff.mpr (selfClosing_of_void name (List.elem_iff.mp void)))
    · rw [if_neg void, (startTag_eq ..).1]
      refine woven_element named ordered element.separate spacing_space.1 element.closable
        (fun isRaw => ?_) (fun closes => ?_) fun notRaw => ?_
      · have counts : verbatimElements.elem name = false := (notVerbatim_of_mem_rawElements isRaw).1
        rw [counts, List.elem_iff.mpr isRaw]
        exact ⟨(raw isRaw).rawContent, fun same => (sheet same).fit⟩
      · rw [closing closes]
        simp [verbatimAll, rawBody, inlineAll]
      · have plain : rawElements.elem name = false := by simpa using notRaw
        rw [plain]
        split
        · exact (woven_verbatimAll below others).whole
        · exact (woven_inlineAll below others).whole

/-- Nodes that are written on one line stand for themselves. -/
theorem woven_inlineAll {style : Style} : ∀ {ns : List Node} {counts : Bool}, SoundAll counts ns →
    RegularAll style ns → Woven (inlineAll ns)
  | [], _, _, _ => by
    rw [inlineAll]
    exact .nil
  | _ :: _, _, sound, regular => by
    rw [inlineAll]
    exact (woven_inline sound.1 regular.1).append (woven_inlineAll sound.2 regular.2)

end

end StaticSite.Markup
