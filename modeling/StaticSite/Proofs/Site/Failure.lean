import StaticSite.Proofs.Site.Markup
import StaticSite.Site.Project

/-! # When a page has no markup

Five kinds of widgets list the members of raw data. Data that counts as present and has no members
is the only thing that generation fails for, and the first component in document order that holds
such data decides the fault. Stylesheet and script are there for every tree.
-/

namespace StaticSite

namespace Widget

/-- The fault of a result, none when there is a result. -/
def faultOf {α : Type} : Except Fault α → Option Fault
  | .ok _ => none
  | .error fault => some fault

theorem faultOf_map {α β : Type} (f : α → β) (result : Except Fault α) :
    faultOf (result.map f) = faultOf result := by
  cases result <;> rfl

/-- What follows a result fails when the result does, and else by itself. -/
theorem faultOf_bind {α β : Type} (result : Except Fault α) {next : α → Except Fault β}
    {later : Option Fault} (after : ∀ a, faultOf (next a) = later) :
    faultOf (result >>= next) = (faultOf result).or later := by
  cases result with
  | error fault => rfl
  | ok a => exact after a

/-- What cannot fail itself fails with the result that it follows. -/
theorem faultOf_bind_total {α β : Type} (result : Except Fault α) (next : α → Except Fault β)
    (total : ∀ a, faultOf (next a) = none) : faultOf (result >>= next) = faultOf result :=
  (faultOf_bind result total).trans (Option.or_none ..)

theorem faultOf_eq_some_iff {α : Type} {result : Except Fault α} {fault : Fault} :
    faultOf result = some fault ↔ result = .error fault := by
  cases result <;> simp [faultOf]

/-- The fault of data that is to be listed: the data counts as present and has no members. -/
def listFault? (v : Value) : Option Fault :=
  if v.isTruthy && v.members?.isNone then some ⟨v.typeName⟩ else none

/-- The data that cannot be listed: what is true, numbers besides zero, and moments. -/
theorem listFault?_ne_none_iff (v : Value) :
    listFault? v ≠ none ↔ v = .bool true ∨ (∃ n, n ≠ 0 ∧ v = .int n) ∨
      (∃ x, (x != 0.0) = true ∧ v = .float x) ∨ ∃ m, v = .moment m := by
  cases v <;> simp [listFault?, Value.isTruthy, Value.members?]

theorem faultOf_membersOf (v : Value) : faultOf (membersOf v) = listFault? v := by
  unfold membersOf listFault?
  cases v.isTruthy with
  | false => rfl
  | true => cases v.members? <;> rfl

/-- The data whose members the markup of a component lists. -/
def listed? (w : Widget) (c : Component) : Option Value :=
  match w with
  | .features => some ((c.props.part? "features").getD defaultFeatures)
  | .footer => some ((c.props.part? "links").getD defaultFooterLinks)
  | .navigation => some ((c.props.part? "links").getD defaultLinks)
  | .select | .radio => c.props.get? "options"
  | _ => none

/-- The fault of a component itself, leaving its children aside. -/
def fault? (w : Widget) (c : Component) : Option Fault := (w.listed? c).bind listFault?

theorem faultOf_choices (c : Component) :
    faultOf (choices c) = (c.props.get? "options").bind listFault? := by
  rw [choices, faultOf_map, faultOf_membersOf]
  cases c.props.get? "options" <;> rfl

/-- A component of a kind that holds children fails with them, one of another kind by itself. -/
theorem faultOf_render (w : Widget) (c : Component) (children : Except Fault Text) :
    faultOf (w.render c children) = if w.acceptsChildren then faultOf children else w.fault? c := by
  cases w with
  | container | region | grid | flex | hero | form | formGroup => exact faultOf_map _ children
  | features | footer | navigation =>
    exact (faultOf_bind_total _ _ fun _ => rfl).trans (faultOf_membersOf _)
  | select | radio => exact (faultOf_bind_total _ _ fun _ => rfl).trans (faultOf_choices c)
  | _ => rfl

/-- The children of a component have no part in its own fault. -/
theorem fault?_children (w : Widget) (c : Component) (children : List Component) :
    w.fault? { c with children := children } = w.fault? c := by
  cases w <;> rfl

/-- A component that holds children has no fault of its own. -/
theorem fault?_of_acceptsChildren {w : Widget} (accepts : w.acceptsChildren = true)
    (c : Component) : w.fault? c = none := by
  cases w with
  | features | footer | navigation | select | radio => cases accepts
  | _ => rfl

end Widget

namespace Site

open Widget (faultOf faultOf_bind faultOf_bind_total faultOf_map faultOf_eq_some_iff)

/-- The fault of a component of a known kind. -/
def componentFault? (c : Component) : Option Widget.Fault :=
  (Widget.ofType? c.type).bind (·.fault? c)

/-- The first fault of a tree in document order. -/
def firstFault? (tree : List Component) : Option Widget.Fault :=
  (Tree.preorderAll (shownAll tree)).findSome? componentFault?

/-- Components that follow others fail after them. -/
theorem firstFault?_cons (c : Component) (rest : List Component) :
    firstFault? (c :: rest) = (firstFault? [c]).or (firstFault? rest) := by
  simp only [firstFault?, shownAll, Tree.preorderAll_append, List.findSome?_append,
    List.append_nil]

/-- What is shown of a component of a known kind fails by itself or below. -/
theorem firstFault?_shown {c : Component} {w : Widget} (known : Widget.ofType? c.type = some w) :
    firstFault? [c] = if w.acceptsChildren then firstFault? c.children else w.fault? c := by
  obtain ⟨id, type, displayName, props, styles, children⟩ := c
  have here (shownChildren : List Component) :
      componentFault? ⟨id, type, displayName, props, styles, shownChildren⟩ =
        w.fault? ⟨id, type, displayName, props, styles, children⟩ := by
    rw [componentFault?, known]
    exact w.fault?_children ⟨id, type, displayName, props, styles, children⟩ shownChildren
  simp only [firstFault?, shownAll, shown, known, List.append_nil, Tree.preorderAll,
    Tree.preorder, List.findSome?_cons, here]
  by_cases accepts : w.acceptsChildren = true
  · simp [accepts, Widget.fault?_of_acceptsChildren accepts]
  · cases w.fault? ⟨id, type, displayName, props, styles, children⟩ <;>
      simp [accepts, Tree.preorderAll]

mutual

/-- A component fails with the first fault that is shown of it. -/
theorem faultOf_renderComponent : ∀ c : Component, faultOf (renderComponent c) = firstFault? [c]
  | ⟨id, type, displayName, props, styles, children⟩ => by
    have below : faultOf ((renderAll children).map (Widget.joinPresent "\n")) =
        firstFault? children := by
      rw [faultOf_map]
      exact faultOf_renderAll children
    rw [renderComponent]
    cases known : Widget.ofType? type with
    | none =>
      rw [below]
      simp only [firstFault?, shownAll, shown, known, List.append_nil]
    | some w =>
      rw [firstFault?_shown known, ← below]
      exact Widget.faultOf_render w _ _

/-- Components fail with the first fault that is shown of them. -/
theorem faultOf_renderAll : ∀ cs : List Component, faultOf (renderAll cs) = firstFault? cs
  | [] => rfl
  | c :: rest => by
    have others : ∀ first : Text, faultOf (do
        let others ← renderAll rest
        pure (first :: others)) = firstFault? rest := by
      intro first
      exact (faultOf_bind_total _ _ fun _ => rfl).trans (faultOf_renderAll rest)
    rw [renderAll, firstFault?_cons, ← faultOf_renderComponent c]
    exact faultOf_bind (renderComponent c) others

end

theorem faultOf_markup (tree : List Component) : faultOf (markup tree) = firstFault? tree := by
  rw [markup, faultOf_map]
  exact faultOf_renderAll tree

/-- Generation fails where the markup does: all its other steps have a result. -/
theorem faultOf_generate (r : Request) : faultOf (generate r) = firstFault? r.tree := by
  exact (faultOf_bind_total _ _ fun _ => rfl).trans (faultOf_markup r.tree)

/-- Markup and site of a tree are missing exactly when some component that is shown is to list data
that counts as present and has no members, and the first of these components decides the fault. -/
theorem generate_eq_error_iff (r : Request) (fault : Widget.Fault) :
    (markup r.tree = .error fault ↔ firstFault? r.tree = some fault) ∧
      (generate r = .error fault ↔ firstFault? r.tree = some fault) := by
  constructor
  · rw [← faultOf_markup, faultOf_eq_some_iff]
  · rw [← faultOf_generate, faultOf_eq_some_iff]

/-- A list to select from whose choices are a number. -/
def countedChoices : Value :=
  .list [.table [("id", .text "a"), ("type", .text "select"), ("props", .table [("options", .int 5)])]]

/-- A tree that loads and has neither markup nor site. -/
theorem generate_countedChoices : ∃ tree, Tree.load countedChoices = .ok tree ∧
    markup tree = .error ⟨"int"⟩ ∧ generate { tree := tree, name := [] } = .error ⟨"int"⟩ :=
  ⟨_, rfl, rfl, rfl⟩

end Site

end StaticSite
