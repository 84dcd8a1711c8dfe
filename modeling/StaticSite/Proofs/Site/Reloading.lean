import StaticSite.Proofs.Tree.Reloading
import StaticSite.Proofs.Site.Failure

/-! # The site of a tree that was loaded again

Stylesheet and script do not depend on raw data that is null. Markup does where a kind of widget has
a default of its own for a property: there null is written and only what is absent gets the default.
-/

namespace StaticSite

/-- Fields of which none is null. -/
theorem Dump.present_eq_self {fields : Fields} (full : ∀ field ∈ fields, field.2.isNull = false) :
    Dump.present fields = fields := by
  rw [Dump.present_eq, List.filter_eq_self]
  intro field member
  rw [full field member]
  rfl

namespace Component

/-- A component none of whose raw data is null. -/
def Full (c : Component) : Prop :=
  (∀ field ∈ c.props.extra, field.2.isNull = false) ∧
    ∀ field ∈ c.styles.variants, field.2.isNull = false

/-- A component without what is null differs from the component in raw data alone. -/
theorem pruned_eq (c : Component) : c.pruned =
    { c with
      props := c.props.pruned
      styles := c.styles.pruned
      children := Tree.prunedAll c.children } := by
  cases c
  rw [pruned]

@[simp] theorem id_pruned (c : Component) : c.pruned.id = c.id := by rw [pruned_eq]

@[simp] theorem type_pruned (c : Component) : c.pruned.type = c.type := by rw [pruned_eq]

@[simp] theorem animations_pruned (c : Component) :
    c.pruned.props.animations = c.props.animations := by
  rw [pruned_eq]
  rfl

@[simp] theorem customCode_pruned (c : Component) :
    c.pruned.props.customCode = c.props.customCode := by
  rw [pruned_eq]
  rfl

end Component

namespace Tree

mutual

theorem preorder_pruned : ∀ c : Component, preorder c.pruned = (preorder c).map Component.pruned
  | ⟨id, type, displayName, props, styles, children⟩ => by
    rw [Component.pruned, preorder, preorder, List.map_cons, preorderAll_prunedAll children,
      Component.pruned]

/-- The components of a tree without what is null, in document order. -/
theorem preorderAll_prunedAll : ∀ tree : List Component,
    preorderAll (prunedAll tree) = (preorderAll tree).map Component.pruned
  | [] => rfl
  | c :: rest => by
    rw [prunedAll, preorderAll, preorderAll, List.map_append, preorder_pruned c,
      preorderAll_prunedAll rest]

end

/-- A tree in which no raw data is null is the tree without what is null. -/
theorem prunedAll_eq_self : ∀ {tree : List Component},
    (∀ c ∈ preorderAll tree, c.Full) → prunedAll tree = tree
  | [], _ => rfl
  | ⟨id, type, displayName, props, styles, children⟩ :: rest, full => by
    rw [preorderAll, List.forall_mem_append, preorder, List.forall_mem_cons] at full
    obtain ⟨⟨own, below⟩, later⟩ := full
    rw [prunedAll, Component.pruned, prunedAll_eq_self below, prunedAll_eq_self later,
      Props.pruned, Styles.pruned, Dump.present_eq_self own.1, Dump.present_eq_self own.2]

theorem walk_prunedAll (tree : List Component) :
    walk (prunedAll tree) = (walk tree).map Component.pruned := by
  rw [walk_eq_preorderAll, walk_eq_preorderAll, preorderAll_prunedAll]

end Tree

/-- A variant of the styles is the same without the variants that are null. -/
theorem Styles.variant_pruned {s : Styles} (distinct : (Fields.keys s.variants).Nodup)
    (name : String) : s.pruned.variant name = s.variant name := by
  have read := Dump.get?_present distinct name
  rw [variant, variant, pruned, read]
  cases Fields.get? s.variants name with
  | none => rfl
  | some v => cases v <;> rfl

/-- A property is read as it was, except that null is absent. -/
theorem Props.get?_pruned {p : Props} (distinct : (Fields.keys p.extra).Nodup) (key : String) :
    p.pruned.get? key = (p.get? key).filter (!·.isNull) :=
  Dump.get?_present distinct key

namespace Site

/-! ## Stylesheet and script -/

/-- The rules of a component do not depend on what is null. -/
theorem component_pruned (w : Widget) {c : Component} (distinct : c.Distinct) :
    Rule.component w c.pruned = Rule.component w c := by
  have media (name width : String) : Rule.media c.pruned name width = Rule.media c name width := by
    rw [Rule.media, Rule.media, Rule.variantDeclarations, Rule.variantDeclarations, c.pruned_eq,
      Styles.variant_pruned distinct.2]
  have base : Rule.base c.pruned = Rule.base c := by
    rw [c.pruned_eq]
    rfl
  have responsive : Rule.responsive c.pruned = Rule.responsive c := by
    simp only [Rule.responsive, base, media]
  rw [Rule.component, Rule.component, responsive, c.id_pruned]

variable {tree : List Component}

theorem componentSection_pruned (distinct : ∀ c ∈ Tree.preorderAll tree, c.Distinct) :
    componentSection (Tree.prunedAll tree) = componentSection tree := by
  rw [componentSection, componentSection, componentRules, componentRules, Tree.walk_prunedAll,
    List.filterMap_map, Tree.walk_eq_preorderAll]
  refine congrArg _ (List.filterMap_congr fun c member => ?_)
  simp only [Function.comp_apply, c.type_pruned, component_pruned _ (distinct c member)]

theorem customSection_pruned (tree : List Component) :
    customSection (Tree.prunedAll tree) = customSection tree := by
  have block (c : Component) : customBlock c.pruned = customBlock c := by
    rw [c.pruned_eq]
    rfl
  simp only [customSection, Tree.walk_prunedAll, List.filterMap_map, Function.comp_def, block]

theorem compile_pruned (tree : List Component) :
    Animation.compile (Tree.prunedAll tree) = Animation.compile tree := by
  have bound (c : Component) : Animation.triggerRules c.pruned = Animation.triggerRules c := by
    rw [c.pruned_eq]
    rfl
  have animations : Animation.ofTree (Tree.prunedAll tree) = Animation.ofTree tree := by
    simp only [Animation.ofTree, Tree.walk_prunedAll, List.flatMap_map, Component.animations_pruned]
  have rules : (Tree.walk (Tree.prunedAll tree)).flatMap Animation.triggerRules =
      (Tree.walk tree).flatMap Animation.triggerRules := by
    rw [Tree.walk_prunedAll, List.flatMap_map, funext bound]
  rw [Animation.compile, Animation.compile, animations, rules]

/-- The stylesheet of a tree does not depend on what is null. -/
theorem stylesheet_pruned (distinct : ∀ c ∈ Tree.preorderAll tree, c.Distinct)
    (options : GenerationOptions) :
    stylesheet (Tree.prunedAll tree) options = stylesheet tree options := by
  rw [stylesheet, stylesheet, styleSections, styleSections, compile_pruned,
    componentSection_pruned distinct, customSection_pruned]

/-- The script of a tree does not depend on what is null. -/
theorem script_pruned (tree : List Component) (javascript : Option String) :
    script (Tree.prunedAll tree) javascript = script tree javascript := by
  have triggers (trigger : String) :
      Tree.hasTrigger (Tree.prunedAll tree) trigger = Tree.hasTrigger tree trigger := by
    simp only [Tree.hasTrigger, Tree.walk_prunedAll, List.any_map, Function.comp_def,
      Component.animations_pruned]
  have scripts : componentScripts (Tree.prunedAll tree) = componentScripts tree := by
    simp only [componentScripts, Tree.walk_prunedAll, List.filterMap_map, Function.comp_def,
      Component.customCode_pruned, Component.id_pruned]
  rw [script, script, runtimeHelpers, runtimeHelpers, triggers, triggers, scripts]

end Site

/-! ## Markup -/

namespace Widget

/-- The properties for which a kind has a default of its own. -/
def defaulted : Widget → List String
  | .form => ["method", "action"]
  | .input => ["type", "name", "placeholder", "value"]
  | .textarea => ["name", "placeholder", "rows", "value"]
  | .select | .radio => ["name"]
  | .checkbox => ["name", "label"]
  | .label | .submitButton => ["text"]
  | _ => []

variable {c : Component} (distinct : c.Distinct)

include distinct

/-- A property that is not null is read as it was. -/
theorem get?_pruned_of_ne_null {key : String} (kept : c.props.get? key ≠ some .null) :
    c.pruned.props.get? key = c.props.get? key := by
  rw [c.pruned_eq]
  dsimp only
  rw [Props.get?_pruned distinct.1]
  cases read : c.props.get? key with
  | none => rfl
  | some v =>
    cases v with
    | null => exact absurd read kept
    | _ => rfl

theorem isOn_pruned (key : String) : isOn c.pruned key = isOn c key := by
  by_cases null : c.props.get? key = some .null
  · rw [c.pruned_eq, isOn, isOn, Props.get?_pruned distinct.1, null]
    rfl
  · rw [isOn, isOn, get?_pruned_of_ne_null distinct null]

theorem choices_pruned : choices c.pruned = choices c := by
  by_cases null : c.props.get? "options" = some .null
  · rw [c.pruned_eq, choices, choices, Props.get?_pruned distinct.1, null]
    rfl
  · rw [choices, choices, get?_pruned_of_ne_null distinct null]

theorem flags_pruned (names : List String) : flags c.pruned names = flags c names := by
  rw [flags, flags, funext (isOn_pruned distinct)]

theorem propertyAttr_pruned {name : String} (kept : c.props.get? name ≠ some .null)
    (default : String) : propertyAttr c.pruned name default = propertyAttr c name default := by
  rw [propertyAttr, propertyAttr, get?_pruned_of_ne_null distinct kept]

omit distinct in
/-- The element of a component does not depend on what is null. -/
theorem block_pruned (c : Component) :
    startTag c.pruned = startTag c ∧ block c.pruned = block c ∧ element c.pruned = element c ∧
      voidTag c.pruned = voidTag c := by
  rw [c.pruned_eq]
  exact ⟨rfl, rfl, rfl, rfl⟩

theorem labelText_pruned (kept : c.props.get? "text" ≠ some .null) :
    labelText c.pruned = labelText c := by
  obtain ⟨-, -, element, -⟩ := block_pruned c
  have target : (if isOn c "for" then [attr "for" (plainOr "" (c.pruned.props.get? "for"))] else []) =
      if isOn c "for" then [attr "for" (plainOr "" (c.props.get? "for"))] else [] := by
    by_cases on : isOn c "for"
    · have there : c.props.get? "for" ≠ some .null := by
        intro null
        rw [isOn, null] at on
        cases on
      rw [get?_pruned_of_ne_null distinct there]
    · rw [if_neg on, if_neg on]
  rw [labelText, labelText, isOn_pruned distinct, isOn_pruned distinct, target, element,
    get?_pruned_of_ne_null distinct kept]

theorem radioTexts_pruned (kept : c.props.get? "name" ≠ some .null) (found : List Choice) :
    radioTexts c.pruned found = radioTexts c found := by
  have one (required : List Attribute) (o : Choice) :
      radioText c.pruned required o = radioText c required o := by
    rw [radioText, radioText, propertyAttr_pruned distinct kept]
  cases found with
  | nil => rfl
  | cons first rest => rw [radioTexts, radioTexts, flags_pruned distinct, one, funext (one [])]

/-- The markup of a component does not depend on what is null, apart from the properties for which
its kind has a default. -/
theorem render_pruned {w : Widget} (kept : ∀ key ∈ w.defaulted, c.props.get? key ≠ some .null)
    (children : Except Fault Text) : w.render c.pruned children = w.render c children := by
  have read (key : String) (member : key ∈ w.defaulted) :
      c.pruned.props.get? key = c.props.get? key :=
    get?_pruned_of_ne_null distinct (kept key member)
  have own (key : String) (member : key ∈ w.defaulted) (default : String) :
      propertyAttr c.pruned key default = propertyAttr c key default :=
    propertyAttr_pruned distinct (kept key member) default
  have flags := flags_pruned distinct
  have choices := choices_pruned distinct
  obtain ⟨startTag, block, element, voidTag⟩ := block_pruned c
  cases w with
  | form =>
    have method := own "method" (by decide)
    have action := own "action" (by decide)
    simp only [render, wrapper, block, method, action]
  | input =>
    have type := own "type" (by decide)
    have name := own "name" (by decide)
    have placeholder := own "placeholder" (by decide)
    have value := own "value" (by decide)
    simp only [render, voidTag, type, name, placeholder, value, flags]
  | textarea =>
    have name := own "name" (by decide)
    have placeholder := own "placeholder" (by decide)
    have rows := read "rows" (by decide)
    have value := read "value" (by decide)
    simp only [render, textareaText, element, name, placeholder, rows, value, flags]
  | select =>
    have name := own "name" (by decide)
    simp only [render, selectText, block, name, flags, choices]
  | checkbox =>
    have name := own "name" (by decide)
    have label := read "label" (by decide)
    simp only [render, checkboxText, block, name, label, flags]
  | radio =>
    have texts := radioTexts_pruned distinct (kept "name" (by decide))
    simp only [render, radioGroupText, block, element, choices, texts]
  | label => exact congrArg Except.ok (labelText_pruned distinct (kept "text" (by decide)))
  | submitButton =>
    have text := read "text" (by decide)
    simp only [render, element, text, flags]
  | _ =>
    rw [c.pruned_eq]
    rfl

end Widget

namespace Site

open Widget (joinPresent)

/-- A component of which no property is null for which its kind has a default. -/
def Defaulted (c : Component) : Prop :=
  ∀ w ∈ Widget.ofType? c.type, ∀ key ∈ w.defaulted, c.props.get? key ≠ some .null

mutual

theorem renderComponent_pruned : ∀ c : Component,
    (∀ d ∈ Tree.preorder c, d.Distinct) → (∀ d ∈ Tree.preorder c, Defaulted d) →
    renderComponent c.pruned = renderComponent c
  | ⟨id, type, displayName, props, styles, children⟩, distinct, kept => by
    rw [Tree.preorder, List.forall_mem_cons] at distinct kept
    have below := renderAll_pruned children distinct.2 kept.2
    rw [Component.pruned, renderComponent, renderComponent, below]
    cases known : Widget.ofType? type with
    | none => rfl
    | some w =>
      have here := Widget.render_pruned distinct.1 (kept.1 w known)
      rw [Component.pruned] at here
      exact here _

theorem renderAll_pruned : ∀ tree : List Component,
    (∀ d ∈ Tree.preorderAll tree, d.Distinct) → (∀ d ∈ Tree.preorderAll tree, Defaulted d) →
    renderAll (Tree.prunedAll tree) = renderAll tree
  | [], _, _ => rfl
  | c :: rest, distinct, kept => by
    rw [Tree.preorderAll, List.forall_mem_append] at distinct kept
    rw [Tree.prunedAll, renderAll, renderAll, renderComponent_pruned c distinct.1 kept.1,
      renderAll_pruned rest distinct.2 kept.2]

end

/-- The markup of a tree does not depend on what is null, apart from the properties for which the
kind of their component has a default. -/
theorem markup_pruned {tree : List Component} (distinct : ∀ c ∈ Tree.preorderAll tree, c.Distinct)
    (kept : ∀ c ∈ Tree.preorderAll tree, Defaulted c) :
    markup (Tree.prunedAll tree) = markup tree := by
  rw [markup, markup, renderAll_pruned tree distinct kept]

/-- A tree that is dumped and loaded again is the same but for raw data that is null, where nothing
stands under the second spelling of code that is absent. Its stylesheet and its script are the same,
and so is its markup where no property is null for which the kind of its component has a default. -/
theorem reload {v : Value} {tree : List Component} (loaded : Tree.load v = .ok tree)
    (distinct : v.Distinct) (clear : ∀ c ∈ Tree.preorderAll tree, c.props.Unshadowed) :
    ∃ again, Tree.load (Tree.dump tree) = .ok again ∧ again = Tree.prunedAll tree ∧
      ((∀ c ∈ Tree.preorderAll tree, c.Full) → again = tree) ∧
      (∀ options, stylesheet again options = stylesheet tree options) ∧
      (∀ javascript, script again javascript = script tree javascript) ∧
      ((∀ c ∈ Tree.preorderAll tree, Defaulted c) → markup again = markup tree) := by
  have apart : ∀ c ∈ Tree.preorderAll tree, c.Distinct := fun c member =>
    (Tree.load_loaded loaded c member).2 distinct
  refine ⟨Tree.prunedAll tree, (Tree.load_dump_iff loaded).mpr clear, rfl, ?_, ?_, ?_, ?_⟩
  · exact Tree.prunedAll_eq_self
  · exact stylesheet_pruned apart
  · exact script_pruned tree
  · exact markup_pruned apart

/-- An input with properties of its own, one of them null, and with code under the second spelling. -/
def spelledInput : Value :=
  .list [.table [("id", .text "a"), ("type", .text "input"),
    ("props", .table [("name", .text "b"), ("required", .null),
      ("custom_code", .table [("css", .text "c")])]),
    ("styles", .table [("sm", .null)])]]

/-- The tree of that input. -/
def spelledTree : List Component := [
  { id := "a", type := "input"
    props := { customCode := some { css := some "c" }, extra := [("name", .text "b"), ("required", .null)] }
    styles := { variants := [("sm", .null)] } }]

theorem reload_spelledInput : Tree.load spelledInput = .ok spelledTree ∧
    ∃ again, Tree.load (Tree.dump spelledTree) = .ok again ∧
      stylesheet again {} = stylesheet spelledTree {} ∧ markup again = markup spelledTree := by
  have loaded : Tree.load spelledInput = .ok spelledTree := rfl
  have distinct : spelledInput.Distinct := by
    simp [spelledInput, Value.Distinct, Value.DistinctItems, Value.DistinctFields, Fields.keys]
  have clear : ∀ c ∈ Tree.preorderAll spelledTree, c.props.Unshadowed := by
    simp [spelledTree, Tree.preorderAll, Tree.preorder, Props.Unshadowed]
  have kept : ∀ c ∈ Tree.preorderAll spelledTree, Defaulted c := by
    have known : Widget.ofType? "input" = some .input := Widget.ofType?_type .input
    simp [spelledTree, Tree.preorderAll, Tree.preorder, Defaulted, known, Widget.defaulted,
      Props.get?, Fields.get?_cons, Fields.get?_nil]
  obtain ⟨again, found, -, -, styles, -, same⟩ := reload loaded distinct clear
  exact ⟨loaded, again, found, styles {}, same kept⟩

/-- An input whose name is null. -/
def namelessInput : Value :=
  .list [.table [("id", .text "a"), ("type", .text "input"), ("props", .table [("name", .null)])]]

/-- An input with something under the second spelling of code that is null. -/
def shadowedInput : Value :=
  .list [.table [("id", .text "a"), ("type", .text "input"),
    ("props", .table [("customCode", .null), ("custom_code", .int 5)])]]

/-- What is null gets lost, and what stands under the second spelling of absent code gets in its
way. -/
theorem reload_lossy :
    (∃ tree again, Tree.load namelessInput = .ok tree ∧ Tree.load (Tree.dump tree) = .ok again ∧
      markup again ≠ markup tree ∧ again ≠ tree) ∧
    ∃ tree issues, Tree.load shadowedInput = .ok tree ∧
      Tree.load (Tree.dump tree) = .error (.invalid issues) := by
  constructor
  · have differ : markup [{ id := "a", type := "input" }] ≠
        markup [{ id := "a", type := "input", props := { extra := [("name", .null)] } }] := by
      intro same
      have texts := congrArg Except.toOption same
      revert texts
      decide
    refine ⟨_, _, rfl, rfl, differ, fun same => differ (congrArg markup same)⟩
  · exact ⟨_, _, rfl, rfl⟩

end Site

end StaticSite
