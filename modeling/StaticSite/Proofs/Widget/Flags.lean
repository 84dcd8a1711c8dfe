import StaticSite.Proofs.Result
import StaticSite.Proofs.Text.Pieces
import StaticSite.Proofs.Widget.Render

/-! # Tags that open components

The markup of a component begins with its own tag, whatever texts it holds. That tag is read as one
tag, and it carries the flags of the component's animations and no flag besides.
-/

namespace StaticSite

namespace Widget

open Markup

/-- The names of attributes that kinds give to the elements of components. -/
def kindNames : List String := [
  "type", "href", "target", "src", "alt", "method", "action", "name", "placeholder", "value",
  "rows", "for", "required", "checked", "disabled"]

theorem attributeNames_of_kindNames {name : String} (known : name ∈ kindNames) :
    name ∈ attributeNames := by
  revert name
  decide

/-- A tag that opens the element of a component, with its attributes as they are read. -/
inductive OpeningTag (c : Component) : Text → Attributes → Prop
  | start {tag : String} {as : List Attribute} (content : tag ∈ contentTags)
      (classes : List String) (named : ∀ a ∈ as, a.1 ∈ kindNames) :
      OpeningTag c (startTag c tag classes as) (readAttributes (ownAttributes c classes as))
  | void {tag : String} {as : List Attribute} (empty : tag ∈ emptyTags)
      (named : ∀ a ∈ as, a.1 ∈ kindNames) :
      OpeningTag c (voidTag c tag as) (readAttributes (ownAttributes c [] as))

/-! ## The flags -/

/-- The last attribute with a name decides its value. -/
theorem attributeOf_readAttributes (as : List Attribute) (name : String) :
    attributeOf (readAttributes as) name =
      (as.reverse.map fun a => (a.1.toList, a.2.getD [])).lookup name.toList := by
  rw [attributeOf, readAttributes, Fields.lookup_putAll, List.map_reverse]
  simp

theorem lookup_eq_none {as : List Attribute} {name : String} (absent : ∀ a ∈ as, a.1 ≠ name) :
    (as.map fun a => (a.1.toList, a.2.getD [])).lookup name.toList = none := by
  refine List.lookup_eq_none_iff.mpr (List.forall_mem_map.mpr fun a member => ?_)
  simpa [String.toList_inj] using (absent a member).symm

section Attributes

variable (c : Component) (classes : List String) {as : List Attribute}
variable (named : ∀ a ∈ as, a.1 ∈ kindNames)
include named

/-- Only the flags decide what stands under names that kinds do not use. -/
theorem attributeOf_flag {name : String} (other : name ∉ "class" :: "id" :: kindNames) :
    attributeOf (readAttributes (ownAttributes c classes as)) name =
      attributeOf (readAttributes (animationFlags c)) name := by
  simp only [List.mem_cons, not_or] at other
  have unnamed : ∀ a ∈ as.reverse, a.1 ≠ name := by
    rintro a member rfl
    exact other.2.2 (named a (List.mem_reverse.mp member))
  rw [attributeOf_readAttributes, attributeOf_readAttributes, ownAttributes]
  simp only [List.reverse_append, List.map_append, List.lookup_append, lookup_eq_none unnamed,
    Option.none_or]
  refine Option.or_eq_left_of_none ?_
  refine lookup_eq_none ?_
  simp [attr, Ne.symm other.1, Ne.symm other.2.1]

/-- The flags say whether the component has animations that start by scrolling or by a click, and
how long the first of the latter takes. -/
theorem flags_own :
    (attributeOf (readAttributes (ownAttributes c classes as)) "data-scroll-animation" ≠ none ↔
        ∃ a ∈ c.props.animations, a.trigger = "onScroll") ∧
      (attributeOf (readAttributes (ownAttributes c classes as)) "data-click-animation" ≠ none ↔
        ∃ a ∈ c.props.animations, a.trigger = "onClick") ∧
      attributeOf (readAttributes (ownAttributes c classes as)) "data-animation-duration" =
        (c.props.animations.find? (·.trigger == "onClick")).map (·.playback.duration.styleText) := by
  have scroll : (c.props.animations.any (·.trigger == "onScroll") = true) ↔
      ∃ a ∈ c.props.animations, a.trigger = "onScroll" := by simp
  have click : (c.props.animations.find? (·.trigger == "onClick")).isSome ↔
      ∃ a ∈ c.props.animations, a.trigger = "onClick" := by simp
  rw [attributeOf_flag c classes named (by decide), attributeOf_flag c classes named (by decide),
    attributeOf_flag c classes named (by decide), ← scroll, ← click, animationFlags]
  simp only [attributeOf_readAttributes]
  cases c.props.animations.any (·.trigger == "onScroll") <;>
  cases c.props.animations.find? (·.trigger == "onClick") <;>
  simp [attr, List.lookup_cons]

end Attributes

/-! ## The tags -/

/-- A tag whose attributes have known names is read as one tag. -/
theorem tokensFrom_named {tag : String} {as : List Attribute} (name : ElementName tag.toList)
    (named : ∀ a ∈ as, a.1 ∈ "class" :: "id" :: attributeNames) {tail : Text}
    (spacing : Spacing [' '] tail) (slash : Bool)
    (notRaw : slash = true ∨ rawElements.elem tag.toList = false) (late : Bool) (rest : Text) :
    tokensFrom late 0 (tagText tag.toList [' '] tail (as.map Attribute.tag) slash ++ rest) =
      .start tag.toList (readAttributes as) slash :: tokensFrom late 0 rest := by
  have sound := List.forall_mem_map.mpr fun a member => Attribute.sound (named a member)
  have lower := name.lower
  have read := tokensFrom_tagText name.toTagName late spacing sound (separate_of_named named) slash
    (lower.symm ▸ notRaw) rest
  rwa [lower, putAll_pair_tag named] at read

/-- An opening tag is read as one tag. -/
theorem OpeningTag.read {c : Component} {tag : Text} {attributes : Attributes}
    (opening : OpeningTag c tag attributes) : ∃ name closed, ∀ late rest,
      tokensFrom late 0 (tag ++ rest) = .start name attributes closed :: tokensFrom late 0 rest := by
  have known {as : List Attribute} (named : ∀ a ∈ as, a.1 ∈ kindNames) :
      ∀ a ∈ as, a.1 ∈ attributeNames := fun a member => attributeNames_of_kindNames (named a member)
  cases opening with
  | @start tag as content classes named =>
    have name := elementName_of_mem (List.mem_append_left emptyTags content)
    have text : startTag c tag classes as = openTag tag (ownAttributes c classes as) :=
      (openTag_eq tag (by simp [ownAttributes])).symm
    exact ⟨tag.toList, false, text ▸ tokensFrom_named name
      (names_ownAttributes c classes (known named)) spacing_space false
      (.inr (content_of_mem content).1)⟩
  | @void tag as empty named =>
    have name := elementName_of_mem (List.mem_append_right contentTags empty)
    have text : voidTag c tag as = slashTag tag (ownAttributes c [] as) :=
      (slashTag_eq tag (by simp [ownAttributes])).symm
    exact ⟨tag.toList, true, text ▸ tokensFrom_named name
      (names_ownAttributes c [] (known named)) spacing_slash true (.inl rfl)⟩

/-- An opening tag holds the id of its component. -/
theorem OpeningTag.id {c : Component} {tag : Text} {attributes : Attributes}
    (opening : OpeningTag c tag attributes) : attributeOf attributes "id" = some c.id.toList := by
  cases opening with
  | start content classes named =>
    exact (attributeOf_own c classes fun a member =>
      attributeNames_of_kindNames (named a member)).2
  | void empty named =>
    exact (attributeOf_own c [] fun a member => attributeNames_of_kindNames (named a member)).2

theorem OpeningTag.flags {c : Component} {tag : Text} {attributes : Attributes}
    (opening : OpeningTag c tag attributes) :
    (attributeOf attributes "data-scroll-animation" ≠ none ↔
        ∃ a ∈ c.props.animations, a.trigger = "onScroll") ∧
      (attributeOf attributes "data-click-animation" ≠ none ↔
        ∃ a ∈ c.props.animations, a.trigger = "onClick") ∧
      attributeOf attributes "data-animation-duration" =
        (c.props.animations.find? (·.trigger == "onClick")).map (·.playback.duration.styleText) := by
  cases opening with
  | start content classes named => exact flags_own c classes named
  | void empty named => exact flags_own c [] named

/-! ## The markup of widgets -/

/-- A text that begins with the tag of a component and holds another text behind it. -/
def Begins (c : Component) (t inner : Text) : Prop :=
  ∃ tag attributes rest, t = tag ++ rest ∧ OpeningTag c tag attributes ∧ inner <:+: rest

theorem begins_start (c : Component) {tag : String} {as : List Attribute} {t inner rest : Text}
    (content : tag ∈ contentTags) (classes : List String) (named : ∀ a ∈ as, a.1 ∈ kindNames)
    (same : t = startTag c tag classes as ++ rest) (inside : inner <:+: rest) :
    Begins c t inner :=
  ⟨_, _, rest, same, .start content classes named, inside⟩

section Own

variable (c : Component) {tag : String} {as : List Attribute} (content : tag ∈ contentTags)
variable (named : ∀ a ∈ as, a.1 ∈ kindNames)
include content named

theorem begins_element (inner : Text) : Begins c (element c tag as inner) inner := by
  refine begins_start c content [] named (List.append_assoc ..) ?_
  exact (List.prefix_append inner _).isInfix

theorem begins_block (classes : List String) (body : Text) :
    Begins c (block c tag classes as body) body := by
  have same : block c tag classes as body =
      startTag c tag classes as ++ ("\n" ++ body ++ ("\n" ++ endTag tag)) := by simp [block]
  exact begins_start c content classes named same (List.infix_append ..)

end Own

theorem fst_flags {c : Component} {names : List String} (known : ∀ n ∈ names, n ∈ kindNames) :
    ∀ a ∈ flags c names, a.1 ∈ kindNames := by
  intro a member
  obtain ⟨name, kept, rfl⟩ := List.mem_map.mp member
  exact known name (List.mem_filter.mp kept).1

/-- A component around the markup of its children begins with its tag and holds that markup. -/
theorem begins_wrapper {c : Component} {tag : String} {classes : List String}
    {as : List Attribute} {start : Text} {children : Except Fault Text} {t : Text}
    (rendered : wrapper c tag classes as start children = .ok t) (content : tag ∈ contentTags)
    (named : ∀ a ∈ as, a.1 ∈ kindNames) :
    ∃ inner, children = .ok inner ∧ Begins c t inner := by
  obtain ⟨inner, below, rfl⟩ := exists_of_map rendered
  obtain ⟨opening, attributes, rest, same, opens, inside⟩ :=
    begins_block c content named classes (joinPresent "\n" [start, inner])
  have held : inner <:+: joinPresent "\n" [start, inner] := infix_joinPresent (by simp)
  exact ⟨inner, below, opening, attributes, rest, same, opens, held.trans inside⟩

/-- A text that begins with the tag of a component holds nothing that has to be looked at. -/
theorem Begins.nil {c : Component} {t inner : Text} (begins : Begins c t inner) :
    Begins c t [] := by
  obtain ⟨tag, attributes, rest, same, opens, -⟩ := begins
  exact ⟨tag, attributes, rest, same, opens, List.nil_infix⟩

/-- The markup of a component begins with its own tag; it holds the markup of its children if its
kind does. -/
theorem render_begins {w : Widget} {c : Component} {children : Except Fault Text} {t : Text}
    (rendered : render w c children = .ok t) :
    ∃ inner, Begins c t inner ∧ if w.acceptsChildren then children = .ok inner else inner = [] := by
  have flag {names : List String} (known : ∀ n ∈ names, n ∈ kindNames) := fst_flags (c := c) known
  cases w with
  | container | region | grid | flex | formGroup | hero =>
    obtain ⟨inner, same, begins⟩ := begins_wrapper rendered (by decide) (by simp)
    exact ⟨inner, begins, same⟩
  | form =>
    obtain ⟨inner, same, begins⟩ := begins_wrapper rendered (by decide)
      (by simp [propertyAttr_fst, kindNames])
    exact ⟨inner, begins, same⟩
  | features =>
    obtain rfl := written_of_members rendered
    exact ⟨[], (begins_block c (by decide) (by simp) _ _).nil, rfl⟩
  | footer =>
    obtain rfl := written_of_members rendered
    exact ⟨[], (begins_block c (by decide) (by simp) _ _).nil, rfl⟩
  | navigation =>
    obtain rfl := written_of_members rendered
    exact ⟨[], (begins_block c (by decide) (by simp) _ _).nil, rfl⟩
  | select =>
    obtain rfl := written_of_choices rendered
    refine ⟨[], (begins_block c (by decide) (List.forall_mem_cons.mpr ⟨?_, ?_⟩) _ _).nil, rfl⟩
    · simp [propertyAttr_fst, kindNames]
    · exact flag (by decide)
  | radio =>
    obtain rfl := written_of_choices rendered
    refine ⟨[], ?_, rfl⟩
    show Begins c (if (radioTexts c (givenChoices c)).isEmpty then _ else _) []
    split
    · exact begins_element c (by decide) (by simp) []
    · exact (begins_block c (by decide) (by simp) _ _).nil
  | spacer =>
    obtain rfl := Except.ok.inj rendered
    exact ⟨[], begins_start c (by decide) ["spacer"] (by simp) rfl List.nil_infix, rfl⟩
  | heading =>
    obtain rfl := Except.ok.inj rendered
    exact ⟨[], (begins_element c (headingTag_mem c) (by simp) _).nil, rfl⟩
  | text =>
    obtain rfl := Except.ok.inj rendered
    exact ⟨[], (begins_element c (by decide) (by simp) _).nil, rfl⟩
  | button | link =>
    obtain rfl := Except.ok.inj rendered
    exact ⟨[], (begins_element c (by decide) (by simp [attr, kindNames]) _).nil, rfl⟩
  | image =>
    obtain rfl := Except.ok.inj rendered
    exact ⟨[], ⟨_, _, [], (List.append_nil _).symm, .void (by decide) (by simp [attr, kindNames]),
      List.nil_infix⟩, rfl⟩
  | callToAction =>
    obtain rfl := Except.ok.inj rendered
    exact ⟨[], (begins_block c (by decide) (by simp) _ _).nil, rfl⟩
  | input =>
    obtain rfl := Except.ok.inj rendered
    refine ⟨[], ⟨_, _, [], (List.append_nil _).symm, .void (by decide)
      (List.forall_mem_append.mpr ⟨?_, flag (by decide)⟩), List.nil_infix⟩, rfl⟩
    simp [propertyAttr_fst, kindNames]
  | textarea =>
    obtain rfl := Except.ok.inj rendered
    refine ⟨[], (begins_element c (by decide) (List.forall_mem_append.mpr ⟨?_, ?_⟩) _).nil, rfl⟩
    · simp [propertyAttr_fst, attr, kindNames]
    · exact flag (by decide)
  | checkbox =>
    obtain rfl := Except.ok.inj rendered
    exact ⟨[], (begins_block c (by decide) (by simp) _ _).nil, rfl⟩
  | label =>
    obtain rfl := Except.ok.inj rendered
    refine ⟨[], (begins_element c (by decide) ?_ _).nil, rfl⟩
    split
    · simp [attr, kindNames]
    · simp
  | submitButton =>
    obtain rfl := Except.ok.inj rendered
    refine ⟨[], (begins_element c (by decide) (List.forall_mem_cons.mpr ⟨?_, ?_⟩) _).nil, rfl⟩
    · simp [attr, kindNames]
    · exact flag (by decide)

end Widget

end StaticSite
