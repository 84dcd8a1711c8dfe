import StaticSite.Proofs.Site.Animation
import StaticSite.Proofs.Site.Markup
import StaticSite.Proofs.Widget.Flags
import StaticSite.Site.Script

/-! # Triggers agree across the page

Two triggers need the page's script: scrolling and clicks. The markup flags the components that
have them, the stylesheet has a rule for each such animation, and the script has a helper that
looks for the flag. The three are written from three walks over the tree, and they agree.
-/

namespace StaticSite

namespace Animation

/-- The rule that binds an animation to a component in a state. -/
def binding (id state : String) (a : StaticSite.Animation) : Text :=
  Text.unlines ['#' :: (id ++ state ++ " \x7b"), "  animation: " ++ shorthand a ++ ";", "\x7d"]

/-- What a rule of a component for a state begins with. -/
def bindingStart (id state : String) : Text := '#' :: (id ++ state ++ " \x7b")

/-- The rules that bind the animations of a component in a state. -/
def rulesIn (c : Component) (state : String) : List Text :=
  (triggerRules c).filter (bindingStart c.id state).isPrefixOf

theorem isPrefixOf_append_append (before s t : Text) :
    (before ++ s).isPrefixOf (before ++ t) = s.isPrefixOf t := by
  rw [Bool.eq_iff_iff, List.isPrefixOf_iff_prefix, List.isPrefixOf_iff_prefix,
    List.prefix_append_right_inj]

/-- The states that the script puts components into, each with its trigger. -/
def servedStates : List (String × String) := [("onScroll", ".in-view"), ("onClick", ".clicked")]

/-- A rule is one for a state when it is written for that state. -/
theorem bindingStart_binding (id : String) (a : StaticSite.Animation) {trigger written : String}
    {served state : String} (known : triggerState? trigger = some written)
    (listed : (served, state) ∈ servedStates) :
    (bindingStart id state).isPrefixOf (binding id written a) = (trigger == served) := by
  have text : binding id written a = ('#' :: id) ++ (written.toList ++ (" \x7b\n" ++
      (("  animation: " ++ shorthand a ++ ";") ++ "\n\x7d"))) := by
    simp [binding, Text.unlines, Text.joinWith]
  have start : bindingStart id state = ('#' :: id) ++ (state.toList ++ " \x7b") := by
    simp [bindingStart]
  have states : (trigger, written) ∈ [("onLoad", ""), ("continuous", ""), ("onHover", ":hover"),
      ("onScroll", ".in-view"), ("onClick", ".clicked")] := mem_of_lookup known
  -- Behind the selector the two are apart before the rule's own text begins.
  rw [text, start, isPrefixOf_append_append]
  simp only [servedStates, List.mem_cons, List.not_mem_nil, or_false, Prod.mk.injEq] at listed states
  obtain ⟨rfl, rfl⟩ | ⟨rfl, rfl⟩ := listed
  all_goals
    obtain ⟨rfl, rfl⟩ | ⟨rfl, rfl⟩ | ⟨rfl, rfl⟩ | ⟨rfl, rfl⟩ | ⟨rfl, rfl⟩ := states
    all_goals rfl

/-- The rules for a state that the script serves are those of the animations with its trigger. -/
theorem rulesIn_eq (c : Component) {served state : String}
    (listed : (served, state) ∈ servedStates) :
    rulesIn c state =
      (c.props.animations.filter (·.trigger == served)).map (binding c.id state) := by
  have states : ∀ p ∈ servedStates, triggerState? p.1 = some p.2 := by decide
  have own : triggerState? served = some state := states _ listed
  unfold rulesIn triggerRules
  induction c.props.animations with
  | nil => rfl
  | cons a rest ih =>
    rw [List.filterMap_cons, List.filter_cons]
    cases known : triggerState? a.trigger with
    | none =>
      have other : (a.trigger == served) = false := by
        rw [beq_eq_false_iff_ne]
        intro same
        rw [same, own] at known
        cases known
      have unbound : triggerRule? c.id a = none := by rw [triggerRule?, known]; rfl
      rw [unbound, other]
      exact ih
    | some written =>
      have bound : triggerRule? c.id a = some (binding c.id written a) := by
        rw [triggerRule?, known]
        rfl
      rw [bound, List.filter_cons, bindingStart_binding c.id a known listed, ih]
      by_cases same : a.trigger = served
      · have equal : written = state := Option.some.inj (known.symm.trans (same ▸ own))
        simp [same, equal]
      · simp [same]

/-- The rules of a component stand in a row in the stylesheet of its tree. -/
theorem triggerRules_compile {tree : List Component} {c : Component} (listed : c ∈ Tree.walk tree) :
    separate (triggerRules c) <:+: compile tree := by
  rw [compile]
  split
  · next none =>
    have noAnimation : c.props.animations = [] := by
      rw [List.isEmpty_iff, ofTree, List.flatMap_eq_nil_iff] at none
      exact none c listed
    simp [triggerRules, noAnimation, separate, Text.joinWith]
  · have among : triggerRules c <:+: (Tree.walk tree).flatMap triggerRules := by
      obtain ⟨before, behind, split⟩ := List.append_of_mem listed
      exact ⟨before.flatMap triggerRules, behind.flatMap triggerRules, by simp [split]⟩
    exact Text.infix_joinWith (List.infix_cons among)

end Animation

namespace Site

open Markup Widget

/-! ## What the script serves -/

/-- A trigger that the script serves: the flag that it looks for, the state that it puts components
into, and the helper that does so. -/
structure Service where
  trigger : String
  flag : String
  state : String
  helper : Text

/-- The triggers that the script serves. -/
def services : List Service := [
  ⟨"onScroll", "data-scroll-animation", ".in-view", scrollHelper⟩,
  ⟨"onClick", "data-click-animation", ".clicked", clickHelper⟩]

/-- A helper is there once when some component has its trigger, and else not at all. -/
theorem occurrences_helper (tree : List Component) {s : Service} (served : s ∈ services) :
    Text.occurrences s.helper (runtimeHelpers tree) =
      if Tree.hasTrigger tree s.trigger then 1 else 0 := by
  have counts : ∀ scroll click : Bool,
      Text.occurrences scrollHelper (joinBlocks ((if scroll then [scrollHelper] else []) ++
        if click then [clickHelper] else [])) = (if scroll then 1 else 0) ∧
      Text.occurrences clickHelper (joinBlocks ((if scroll then [scrollHelper] else []) ++
        if click then [clickHelper] else [])) = if click then 1 else 0 := by
    -- Literals become lists of characters first, which the kernel is slow to make of them.
    unfold scrollHelper clickHelper
    repeat rw [String.toList_ofList]
    decide +kernel
  simp only [services, List.mem_cons, List.not_mem_nil, or_false] at served
  rcases served with rfl | rfl
  · exact (counts _ _).1
  · exact (counts _ _).2

theorem hasTrigger_iff (tree : List Component) (trigger : String) :
    Tree.hasTrigger tree trigger = true ↔
      ∃ c ∈ Tree.walk tree, ∃ a ∈ c.props.animations, a.trigger = trigger := by
  simp [Tree.hasTrigger]

/-! ## The components with an element -/

mutual

/-- The components from one on whose elements are written, in document order. -/
def written : Component → List Component
  | ⟨id, type, displayName, props, styles, children⟩ =>
      match Widget.ofType? type with
      | none => writtenAll children
      | some w =>
          ⟨id, type, displayName, props, styles, children⟩ ::
            if w.acceptsChildren then writtenAll children else []

/-- The components of a tree whose elements are written, in document order. -/
def writtenAll : List Component → List Component
  | [] => []
  | c :: rest => written c ++ writtenAll rest

end

mutual

theorem written_sublist : ∀ c : Component, List.Sublist (written c) (Tree.preorder c)
  | ⟨id, type, displayName, props, styles, children⟩ => by
    rw [written, Tree.preorder]
    cases Widget.ofType? type with
    | none => exact (writtenAll_sublist children).cons _
    | some w =>
      apply List.Sublist.cons_cons
      split
      · exact writtenAll_sublist children
      · exact List.nil_sublist _

theorem writtenAll_sublist : ∀ tree : List Component,
    List.Sublist (writtenAll tree) (Tree.preorderAll tree)
  | [] => .slnil
  | c :: rest => by
    rw [writtenAll, Tree.preorderAll]
    exact (written_sublist c).append (writtenAll_sublist rest)

end

/-- A tag that opens a component in markup, as it is written. -/
def Opened (c : Component) (opening : Text × Attributes) : Prop :=
  OpeningTag c opening.1 opening.2 ∧ ∃ rest, renderComponent c = .ok (opening.1 ++ rest)

/-- The opening tags of components stand in their markup in document order. -/
def Shows (cs : List Component) (t : Text) : Prop :=
  ∃ openings : List (Text × Attributes),
    Text.InOrder (openings.map Prod.fst) t ∧ List.Forall₂ Opened cs openings

theorem shows_joinPresent {separator : Text} {css : List (List Component)} {texts : List Text}
    (each : List.Forall₂ Shows css texts) : Shows css.flatten (joinPresent separator texts) := by
  obtain ⟨openings, inOrder, opened⟩ : ∃ openings : List (List (Text × Attributes)),
      List.Forall₂ Text.InOrder (openings.map (List.map Prod.fst)) texts ∧
        List.Forall₂ Opened css.flatten openings.flatten := by
    induction each with
    | nil => exact ⟨[], .nil, .nil⟩
    | cons first _ ih =>
      obtain ⟨own, here, opened⟩ := first
      obtain ⟨others, later, more⟩ := ih
      refine ⟨own :: others, .cons here later, ?_⟩
      rw [List.flatten_cons, List.flatten_cons]
      exact List.rel_append opened more
  refine ⟨openings.flatten, ?_, opened⟩
  rw [List.map_flatten]
  exact inOrder_joinPresent inOrder

theorem writtenAll_eq (cs : List Component) : (cs.map written).flatten = writtenAll cs := by
  induction cs with
  | nil => rfl
  | cons c rest ih => rw [List.map_cons, List.flatten_cons, ih, writtenAll]

/-- The markup of components that show their openings, joined. -/
theorem shows_joined {separator inner : Text} {cs : List Component}
    (rendered : (renderAll cs).map (joinPresent separator) = .ok inner)
    (each : ∀ ts, renderAll cs = .ok ts → List.Forall₂ Shows (cs.map written) ts) :
    Shows (writtenAll cs) inner := by
  obtain ⟨ts, texts, rfl⟩ := exists_of_map rendered
  exact writtenAll_eq cs ▸ shows_joinPresent (each ts texts)

mutual

/-- The markup of a component shows the openings of all that are written with it. -/
theorem shows_renderComponent : ∀ (c : Component) {t : Text}, renderComponent c = .ok t →
    Shows (written c) t
  | ⟨id, type, displayName, props, styles, children⟩, t, rendered => by
    have whole := rendered
    rw [renderComponent] at rendered
    rw [written]
    cases known : Widget.ofType? type with
    | none =>
      simp only [known] at rendered ⊢
      exact shows_joined rendered fun ts texts => shows_renderAll children texts
    | some w =>
      simp only [known] at rendered ⊢
      obtain ⟨inner, ⟨tag, attributes, rest, rfl, opening, inside⟩, held⟩ :=
        render_begins rendered
      have below : Shows (if w.acceptsChildren then writtenAll children else []) inner := by
        split at held
        · next accepts =>
          rw [if_pos accepts]
          exact shows_joined held fun ts texts => shows_renderAll children texts
        · next leaves =>
          rw [if_neg leaves]
          exact ⟨[], .nil _, .nil⟩
      obtain ⟨openings, inOrder, opened⟩ := below
      refine ⟨(tag, attributes) :: openings, ?_, .cons ⟨opening, rest, whole⟩ opened⟩
      exact .cons [] (inOrder.of_infix inside)

/-- The markup of each component shows the openings of all that are written with it. -/
theorem shows_renderAll : ∀ (cs : List Component) {ts : List Text}, renderAll cs = .ok ts →
    List.Forall₂ Shows (cs.map written) ts
  | [], ts, rendered => by
    obtain rfl := Except.ok.inj rendered
    exact .nil
  | c :: rest, ts, rendered => by
    obtain ⟨text, texts, first, others, rfl⟩ := exists_of_renderAll_cons rendered
    exact .cons (shows_renderComponent c first) (shows_renderAll rest others)

end

/-! ## The agreement -/

/-- A tag that opens the element of a component: the markup of the component begins with it, and it
is read as one tag, which holds the component's id. -/
structure Opens (c : Component) (tag : Text) (attributes : Attributes) : Prop where
  begins : ∃ rest, renderComponent c = .ok (tag ++ rest)
  read : ∃ name closed, ∀ late rest,
    tokensFrom late 0 (tag ++ rest) = .start name attributes closed :: tokensFrom late 0 rest
  id : attributeOf attributes "id" = some c.id.toList

/-- How a page serves a trigger for a component whose tag is read with some attributes: the flag in
the tag, the rules in the stylesheet and the helper in the script. -/
structure Serves (tree : List Component) (c : Component) (attributes : Attributes)
    (s : Service) : Prop where
  flag : attributeOf attributes s.flag ≠ none ↔ ∃ a ∈ c.props.animations, a.trigger = s.trigger
  rules : Animation.rulesIn c s.state =
    (c.props.animations.filter (·.trigger == s.trigger)).map (Animation.binding c.id s.state)
  compiled : Animation.separate (Animation.triggerRules c) <:+: Animation.compile tree
  helper : attributeOf attributes s.flag ≠ none →
    Text.occurrences s.helper (runtimeHelpers tree) = 1

theorem serves_of_opening {tree : List Component} {c : Component} {tag : Text}
    {attributes : Attributes} (opening : OpeningTag c tag attributes) (listed : c ∈ Tree.walk tree)
    {s : Service} (served : s ∈ services) : Serves tree c attributes s := by
  have states : ∀ s ∈ services, (s.trigger, s.state) ∈ Animation.servedStates := by
    simp [services, Animation.servedStates]
  have flag : attributeOf attributes s.flag ≠ none ↔
      ∃ a ∈ c.props.animations, a.trigger = s.trigger := by
    obtain ⟨scroll, click, -⟩ := opening.flags
    simp only [services, List.mem_cons, List.not_mem_nil, or_false] at served
    rcases served with rfl | rfl
    · exact scroll
    · exact click
  constructor
  · exact flag
  · exact Animation.rulesIn_eq c (states s served)
  · exact Animation.triggerRules_compile listed
  · intro flagged
    have triggered := (hasTrigger_iff tree s.trigger).mpr ⟨c, listed, flag.mp flagged⟩
    rw [occurrences_helper tree served, if_pos triggered]

/-- Markup, stylesheet and script agree on triggers. The opening tags of the components that are
written stand in the markup in document order. Each carries the flags of the triggers that its
component has, with the duration of the first animation that a click starts; for each flag there is
one rule per animation and one helper. A helper is there only for a trigger of some component. -/
theorem triggers_agree {tree : List Component} {t : Text} (rendered : markup tree = .ok t) :
    (∃ openings : List (Text × Attributes), Text.InOrder (openings.map Prod.fst) t ∧
      List.Forall₂ (fun c o => Opens c o.1 o.2 ∧ (∀ s ∈ services, Serves tree c o.2 s) ∧
        attributeOf o.2 "data-animation-duration" =
          (c.props.animations.find? (·.trigger == "onClick")).map (·.playback.duration.styleText))
        (writtenAll tree) openings) ∧
    ∀ s ∈ services, Text.occurrences s.helper (runtimeHelpers tree) ≠ 0 →
      ∃ c ∈ Tree.walk tree, ∃ a ∈ c.props.animations, a.trigger = s.trigger := by
  constructor
  · obtain ⟨openings, inOrder, opened⟩ := shows_joined rendered fun ts texts =>
      shows_renderAll tree texts
    have listed : ∀ c ∈ writtenAll tree, c ∈ Tree.walk tree := by
      intro c member
      rw [Tree.walk_eq_preorderAll]
      exact (writtenAll_sublist tree).subset member
    refine ⟨openings, inOrder, ?_⟩
    refine ((List.forall₂_and_left _ _).mpr ⟨listed, opened⟩).imp ?_
    rintro c ⟨tag, attributes⟩ ⟨member, opening, begins⟩
    exact ⟨⟨begins, opening.read, opening.id⟩, fun s served => serves_of_opening opening member served,
      opening.flags.2.2⟩
  · intro s served present
    apply (hasTrigger_iff tree s.trigger).mp
    by_contra absent
    rw [occurrences_helper tree served, if_neg absent] at present
    exact present rfl

/-- A tree with a component that scrolling and two clicks animate, below one of an unknown kind. -/
def movingTree : List Component := [
  { id := "lost", type := "mystery", children := [
      { id := "card", type := "container", props := { animations := [
          { id := "a", trigger := "onScroll" },
          { id := "b", trigger := "onClick", playback := { duration := .int 500 } },
          { id := "c", trigger := "onClick" }] } }] }]

theorem triggers_agree_movingTree : ∃ t attributes, markup movingTree = .ok t ∧
    attributeOf attributes "id" = some "card" ∧
    attributeOf attributes "data-animation-duration" = some "500" ∧
    Text.occurrences clickHelper (runtimeHelpers movingTree) = 1 := by
  obtain ⟨⟨openings, -, each⟩, -⟩ := @triggers_agree movingTree _ rfl
  cases each with
  | @cons card opening _ _ first _ =>
    obtain ⟨opens, serves, duration⟩ := first
    have click := serves _ (List.mem_cons_of_mem _ List.mem_cons_self)
    have flagged : attributeOf opening.2 "data-click-animation" ≠ none :=
      click.flag.mpr ⟨_, List.mem_cons_of_mem _ List.mem_cons_self, rfl⟩
    exact ⟨_, opening.2, rfl, opens.id, duration, click.helper flagged⟩

end Site

end StaticSite
