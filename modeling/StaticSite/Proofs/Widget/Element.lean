import StaticSite.Proofs.Markup.Escaping
import StaticSite.Proofs.Markup.Outline
import StaticSite.Widget.Element

/-! # Elements of widgets as fragments

The tags that widgets write can be read back whatever their values are: a value is escaped, and the
names of tags and attributes are known. A component's own element is the one with its id.
-/

namespace StaticSite.Widget

open Markup

/-- The tags of elements with content that widgets write. -/
def contentTags : List String := [
  "div", "section", "h1", "h2", "h3", "h4", "h5", "h6", "p", "button", "a", "footer", "nav", "form",
  "textarea", "select", "option", "label", "span"]

/-- The tags of elements without content that widgets write. -/
def emptyTags : List String := ["img", "input"]

/-- The names of attributes that widgets write besides the class and the id of a component. -/
def attributeNames : List String := [
  "data-scroll-animation", "data-click-animation", "data-animation-duration", "type", "href",
  "target", "src", "alt", "method", "action", "name", "placeholder", "value", "rows", "for",
  "required", "checked", "disabled"]

theorem elementName_of_mem {tag : String} (member : tag ∈ contentTags ++ emptyTags) :
    ElementName tag := by
  simp only [contentTags, emptyTags, List.cons_append, List.nil_append, List.mem_cons,
    List.not_mem_nil, or_false] at member
  rcases member with rfl | rfl | rfl | rfl | rfl | rfl | rfl | rfl | rfl | rfl | rfl | rfl | rfl |
    rfl | rfl | rfl | rfl | rfl | rfl | rfl | rfl <;>
  exact ⟨⟨⟨_, rfl, by decide⟩, by decide⟩, by decide, by decide⟩

/-- Elements with content are neither raw nor do they close themselves. -/
theorem content_of_mem {tag : String} (member : tag ∈ contentTags) :
    rawElements.elem tag.toList = false ∧ selfClosingElements.elem tag.toList = false := by
  revert tag
  decide

/-- An attribute as it stands in a tag. -/
def Attribute.tag (a : Attribute) : TagAttribute :=
  ⟨a.1, a.2.map fun value => ('"', Text.escapeAttribute value)⟩

theorem chars_of_named {name : String} (named : name ∈ "class" :: "id" :: attributeNames) :
    name.toList ≠ [] ∧ ∀ c ∈ name.toList, isAttributeChar c = true := by
  revert name
  decide

theorem lower_of_named {name : String} (named : name ∈ "class" :: "id" :: attributeNames) :
    Text.lower name.toList = name.toList := by
  revert name
  decide

/-- An attribute whose name has the characters of a name can be read. -/
theorem Attribute.sound_of_chars {a : Attribute} (some : a.1.toList ≠ [])
    (chars : ∀ c ∈ a.1.toList, isAttributeChar c = true) : a.tag.Sound := by
  refine ⟨.of_chars some chars, fun v value => ?_⟩
  obtain ⟨w, -, rfl⟩ := Option.map_eq_some_iff.mp value
  exact ⟨rfl, not_mem_escapeAttribute (c := '"') (by decide) w⟩

/-- An attribute with a known name can be read. -/
theorem Attribute.sound {a : Attribute} (named : a.1 ∈ "class" :: "id" :: attributeNames) :
    a.tag.Sound :=
  sound_of_chars (chars_of_named named).1 (chars_of_named named).2

/-- Attributes with known names do not take each other for their values. -/
theorem separate_of_named {as : List Attribute}
    (named : ∀ a ∈ as, a.1 ∈ "class" :: "id" :: attributeNames) :
    TagAttribute.Separate (as.map Attribute.tag) :=
  TagAttribute.separate_of_chars (List.forall_mem_map.mpr fun a member =>
    (chars_of_named (named a member)).2)

/-- An attribute with a name in lower case is read with its value. -/
theorem Attribute.pair_tag {a : Attribute} (lower : Text.lower a.1.toList = a.1.toList) :
    a.tag.pair = (a.1.toList, a.2.getD []) := by
  obtain ⟨name, value⟩ := a
  refine Prod.ext lower ?_
  cases value with
  | none => rfl
  | some v => exact resolve_replaceEach resolves_attributeReference v

theorem Attribute.text_tag (a : Attribute) : a.tag.text = attributeText a := by
  obtain ⟨name, value⟩ := a
  cases value <;> simp [attributeText, Attribute.tag, TagAttribute.text, TagAttribute.valueText]

theorem cons_attributesText {as : List Attribute} (some : as ≠ []) :
    ' ' :: attributesText as = (as.map Attribute.tag).flatMap fun a => ' ' :: a.text := by
  induction as with
  | nil => exact absurd rfl some
  | cons a rest ih =>
    cases rest with
    | nil => simp [attributesText, Text.joinWith, a.text_tag]
    | cons b more =>
      have later := ih (by simp)
      rw [List.map_cons, List.flatMap_cons, ← later, a.text_tag]
      simp [attributesText, Text.joinWith]

/-- The blanks in a start tag that widgets write. -/
theorem spacing_space : Spacing [' '] [] := ⟨by simp, by decide, by simp⟩

/-- The blanks in a tag with a slash at its end that widgets write. -/
theorem spacing_slash : Spacing [' '] [' '] := ⟨by simp, by decide, by decide⟩

/-- The attributes of a tag as they are read. -/
def readAttributes (as : List Attribute) : Attributes :=
  Fields.putAll [] (as.map fun a => (a.1.toList, a.2.getD []))

theorem putAll_pair_tag {as : List Attribute}
    (named : ∀ a ∈ as, a.1 ∈ "class" :: "id" :: attributeNames) :
    Fields.putAll [] ((as.map Attribute.tag).map TagAttribute.pair) = readAttributes as := by
  have pairs : ∀ a ∈ as, a.tag.pair = (a.1.toList, a.2.getD []) :=
    fun a member => Attribute.pair_tag (lower_of_named (named a member))
  rw [readAttributes, List.map_map]
  exact congrArg _ (List.map_congr_left pairs)

/-- Names of attributes that are not set keep their values. -/
theorem lookup_readAttributes {name : String} {as : List Attribute}
    (absent : ∀ a ∈ as, a.1 ≠ name) (before : Attributes) :
    (Fields.putAll before (as.map fun a => (a.1.toList, a.2.getD []))).lookup name.toList =
      before.lookup name.toList := by
  have missing : name.toList ∉ Fields.keys (as.map fun a => (a.1.toList, a.2.getD [])) := by
    simpa [Fields.keys, String.toList_inj] using fun v member => absent (name, v) member rfl
  exact Fields.lookup_putAll_of_not_mem missing before

theorem names_animationFlags (c : Component) : ∀ a ∈ animationFlags c, a.1 ∈ attributeNames := by
  intro a member
  unfold animationFlags at member
  rcases List.mem_append.mp member with scroll | click
  · split at scroll
    · obtain rfl := List.mem_singleton.mp scroll
      decide
    · exact absurd scroll List.not_mem_nil
  · split at click
    · simp only [List.mem_cons, List.not_mem_nil, or_false] at click
      rcases click with rfl | rfl <;> simp [attr, attributeNames]
    · exact absurd click List.not_mem_nil

section Own

variable (c : Component) (classes : List String) {as : List Attribute}
variable (named : ∀ a ∈ as, a.1 ∈ attributeNames)
include named

theorem names_ownAttributes :
    ∀ a ∈ ownAttributes c classes as, a.1 ∈ "class" :: "id" :: attributeNames := by
  intro a member
  simp only [ownAttributes, List.cons_append, List.nil_append, List.mem_cons,
    List.mem_append] at member
  rcases member with rfl | rfl | flag | other
  · exact List.mem_cons_self
  · exact List.mem_cons_of_mem _ List.mem_cons_self
  · exact List.mem_cons_of_mem _ (List.mem_cons_of_mem _ (names_animationFlags c a flag))
  · exact List.mem_cons_of_mem _ (List.mem_cons_of_mem _ (named a other))

/-- The attributes of a component's own element hold its class and its id. -/
theorem attributeOf_own :
    attributeOf (readAttributes (ownAttributes c classes as)) "class" =
        some (Text.joinWith " " ((("c-" ++ c.id) :: classes).map String.toList)) ∧
      attributeOf (readAttributes (ownAttributes c classes as)) "id" = some c.id.toList := by
  have others (name : String) (other : name ∉ attributeNames) :
      ∀ a ∈ animationFlags c ++ as, a.1 ≠ name := by
    rintro a member rfl
    exact other ((List.mem_append.mp member).elim (names_animationFlags c a) (named a))
  have start : readAttributes (ownAttributes c classes as) = Fields.putAll
      [("class".toList, Text.joinWith " " ((("c-" ++ c.id) :: classes).map String.toList)),
        ("id".toList, c.id.toList)]
      ((animationFlags c ++ as).map fun a => (a.1.toList, a.2.getD [])) := by
    simp [readAttributes, ownAttributes, Fields.putAll, Fields.put, attr]
  rw [start]
  exact ⟨lookup_readAttributes (others "class" (by decide)) _,
    lookup_readAttributes (others "id" (by decide)) _⟩

theorem classes_own : Classes (readAttributes (ownAttributes c classes as)) := by
  obtain ⟨classText, idText⟩ := attributeOf_own c classes named
  intro id found
  obtain rfl : c.id.toList = id := Option.some.inj (idText.symm.trans found)
  refine ⟨_, classText, ?_⟩
  cases classes with
  | nil => simp [Text.joinWith]
  | cons next more => simp [Text.joinWith]

end Own

/-! ## Elements -/

/-- A start tag. -/
def openTag (tag : String) (as : List Attribute) : Text :=
  tagText tag.toList [' '] [] (as.map Attribute.tag) false

/-- A tag with a slash at its end. -/
def slashTag (tag : String) (as : List Attribute) : Text :=
  tagText tag.toList [' '] [' '] (as.map Attribute.tag) true

theorem openTag_eq (tag : String) {as : List Attribute} (some : as ≠ []) :
    openTag tag as = "<" ++ tag ++ " " ++ attributesText as ++ ">" := by
  have attributes : ' ' :: attributesText as = _ := cons_attributesText some
  simp [openTag, tagText, endingText, ← attributes]

theorem slashTag_eq (tag : String) {as : List Attribute} (some : as ≠ []) :
    slashTag tag as = "<" ++ tag ++ " " ++ attributesText as ++ " />" := by
  have attributes : ' ' :: attributesText as = _ := cons_attributesText some
  simp [slashTag, tagText, endingText, ← attributes]

section Elements

variable {tag : String} {as : List Attribute}
variable (named : ∀ a ∈ as, a.1 ∈ "class" :: "id" :: attributeNames)
variable (classes : Classes (readAttributes as))
include named classes

/-- An element around a fragment. -/
theorem fragment_openTag (content : tag ∈ contentTags) {inner : Text} {os : List Outline}
    (fragment : Fragment inner os) :
    Fragment (openTag tag as ++ inner ++ endTag tag) (around (readAttributes as) os) := by
  have name := elementName_of_mem (List.mem_append_left emptyTags content)
  have sound := List.forall_mem_map.mpr fun a member => Attribute.sound (named a member)
  have element := Fragment.element name spacing_space sound (separate_of_named named)
    (putAll_pair_tag named ▸ classes) (content_of_mem content).1 (content_of_mem content).2 fragment
  rw [putAll_pair_tag named] at element
  simpa [openTag, endTag] using element

/-- An element without content. -/
theorem fragment_slashTag (empty : tag ∈ emptyTags) :
    Fragment (slashTag tag as) (around (readAttributes as) []) := by
  have name := elementName_of_mem (List.mem_append_right contentTags empty)
  have sound := List.forall_mem_map.mpr fun a member => Attribute.sound (named a member)
  have element := Fragment.slash name spacing_slash sound (separate_of_named named)
    (putAll_pair_tag named ▸ classes)
  rwa [putAll_pair_tag named] at element

end Elements

/-- Leaving empty pieces out leaves out no element. -/
theorem fragment_joinPresent {separator : Text} (between : Fragment separator [])
    {pieces : List Text} {outlines : List (List Outline)}
    (fragments : List.Forall₂ Fragment pieces outlines) :
    Fragment (joinPresent separator pieces) outlines.flatten := by
  obtain ⟨kept, present, same⟩ : ∃ kept,
      List.Forall₂ Fragment (pieces.filter (!·.isEmpty)) kept ∧ kept.flatten = outlines.flatten := by
    induction fragments with
    | nil => exact ⟨[], .nil, rfl⟩
    | @cons piece os pieces outlines first _ ih =>
      obtain ⟨kept, present, same⟩ := ih
      cases piece with
      | nil => exact ⟨kept, present, by simp [same, first.outline_eq_nil]⟩
      | cons x rest => exact ⟨os :: kept, .cons first present, by simp [same]⟩
  exact same ▸ between.joinWith present

section Own

variable (c : Component) {tag : String} {as : List Attribute}
variable (named : ∀ a ∈ as, a.1 ∈ attributeNames)
include named

/-- The element of a component around a fragment. -/
theorem fragment_own (classes : List String) (content : tag ∈ contentTags) {inner : Text}
    {os : List Outline} (fragment : Fragment inner os) :
    Fragment (startTag c tag classes as ++ inner ++ endTag tag) [.element c.id.toList os] := by
  have start : startTag c tag classes as = openTag tag (ownAttributes c classes as) :=
    (openTag_eq tag (by simp [ownAttributes])).symm
  have element := fragment_openTag (names_ownAttributes c classes named)
    (classes_own c classes named) content fragment
  rwa [around, (attributeOf_own c classes named).2, ← start] at element

/-- The element of a component without content. -/
theorem fragment_void (empty : tag ∈ emptyTags) :
    Fragment (voidTag c tag as) [.element c.id.toList []] := by
  have whole : voidTag c tag as = slashTag tag (ownAttributes c [] as) :=
    (slashTag_eq tag (by simp [ownAttributes])).symm
  have element := fragment_slashTag (names_ownAttributes c [] named) (classes_own c [] named) empty
  rwa [around, (attributeOf_own c [] named).2, ← whole] at element

end Own

section Plain

variable {tag : String} {as : List Attribute}
variable (named : ∀ a ∈ as, a.1 ∈ "class" :: attributeNames)
include named

theorem names_plain : ∀ a ∈ as, a.1 ∈ "class" :: "id" :: attributeNames :=
  fun a member => (List.mem_cons.mp (named a member)).elim
    (fun same => List.mem_cons.mpr (Or.inl same))
    (fun other => List.mem_cons_of_mem _ (List.mem_cons_of_mem _ other))

theorem attributeOf_plain : attributeOf (readAttributes as) "id" = none := by
  have absent : ∀ a ∈ as, a.1 ≠ "id" := by
    rintro a member same
    exact absurd (same ▸ named a member) (by decide)
  exact lookup_readAttributes absent []

theorem classes_plain : Classes (readAttributes as) := by
  intro id found
  rw [attributeOf_plain named] at found
  cases found

/-- An element that is no component around a fragment. -/
theorem fragment_plain (content : tag ∈ contentTags) {inner : Text} {os : List Outline}
    (fragment : Fragment inner os) : Fragment (openTag tag as ++ inner ++ endTag tag) os := by
  have element := fragment_openTag (names_plain named) (classes_plain named) content fragment
  rwa [around, attributeOf_plain named] at element

/-- An element that is no component, without content. -/
theorem fragment_plain_slash (empty : tag ∈ emptyTags) : Fragment (slashTag tag as) [] := by
  have element := fragment_slashTag (names_plain named) (classes_plain named) empty
  rwa [around, attributeOf_plain named] at element

end Plain

end StaticSite.Widget
