import Mathlib.Logic.Relation
import StaticSite.Proofs.Text.Pieces
import StaticSite.Site.Markup
import StaticSite.Site.Stylesheet

/-! # Components that give way to their children

A component of a kind that is not known leaves nothing of its own on a page. Where it is a child of
another component, the page is the same with its children in its place; where it is a root, only
the gaps between its children become wider.
-/

namespace StaticSite

namespace Widget

/-- Pieces that are joined are left out among others when they are all left out by themselves. -/
theorem joinPresent_eq_nil_iff (separator : Text) (pieces : List Text) :
    joinPresent separator pieces = [] ↔ pieces.filter (!·.isEmpty) = [] := by
  constructor
  · intro empty
    by_contra some
    obtain ⟨t, rest, kept⟩ := List.exists_cons_of_ne_nil some
    have present : t ∈ pieces.filter (!·.isEmpty) := kept ▸ List.mem_cons_self
    rw [joinPresent, kept] at empty
    exact Text.joinWith_ne_nil separator (by simpa using (List.mem_filter.mp present).2) rest empty
  · intro none
    rw [joinPresent, none]
    rfl

/-- Joining joined pieces among others is joining them all. -/
theorem joinPresent_splice (separator : Text) (before pieces behind : List Text) :
    joinPresent separator (before ++ joinPresent separator pieces :: behind) =
      joinPresent separator (before ++ (pieces ++ behind)) := by
  by_cases none : pieces.filter (!·.isEmpty) = []
  · have left := (joinPresent_eq_nil_iff separator pieces).mpr none
    rw [left]
    simp [joinPresent, none]
  · have kept := mt (joinPresent_eq_nil_iff separator pieces).mp none
    rw [joinPresent, List.filter_append, List.filter_cons_of_pos (by simpa using kept), joinPresent,
      Text.joinWith_splice _ _ _ none, joinPresent, List.filter_append, List.filter_append]

/-- What stands around a piece does not depend on it. -/
theorem exists_joinPresent_around (separator : Text) (before behind : List Text) :
    ∃ front back, ∀ t ≠ [], joinPresent separator (before ++ t :: behind) = front ++ t ++ back := by
  let start := before.filter (!·.isEmpty)
  let rest := behind.filter (!·.isEmpty)
  have first (t : Text) : Text.joinWith separator (t :: rest) =
      t ++ if rest = [] then [] else separator ++ Text.joinWith separator rest := by
    split
    · next none =>
      rw [none, List.append_nil]
      rfl
    · next some => exact Text.joinWith_cons some
  refine ⟨if start = [] then [] else Text.joinWith separator start ++ separator,
    if rest = [] then [] else separator ++ Text.joinWith separator rest, fun t shows => ?_⟩
  rw [joinPresent, List.filter_append, List.filter_cons_of_pos (by simpa using shows)]
  change Text.joinWith separator (start ++ t :: rest) = _
  split
  · next none => rw [none, List.nil_append, first, List.nil_append]
  · next some =>
    rw [Text.joinWith_append some (by simp), first]
    simp only [List.append_assoc]

/-- What stands around joined pieces does not depend on what is between them. -/
theorem exists_joinPresent_joined (separator : Text) (before pieces behind : List Text) :
    ∃ front back, ∀ gap, joinPresent separator (before ++ joinPresent gap pieces :: behind) =
      front ++ joinPresent gap pieces ++ back := by
  by_cases none : pieces.filter (!·.isEmpty) = []
  · refine ⟨joinPresent separator (before ++ [] :: behind), [], fun gap => ?_⟩
    rw [(joinPresent_eq_nil_iff gap pieces).mpr none, List.append_nil, List.append_nil]
  · obtain ⟨front, back, around⟩ := exists_joinPresent_around separator before behind
    exact ⟨front, back, fun gap => around _ (mt (joinPresent_eq_nil_iff gap pieces).mp none)⟩

/-- The children of a component are in its markup only as the markup that is made of them. -/
theorem render_children (w : Widget) (c : Component) (children : List Component)
    (inner : Except Fault Text) : w.render { c with children := children } inner = w.render c inner := by
  cases w <;> rfl

end Widget

namespace Site

open Widget (joinPresent)

/-! ## Trees with a component less -/

/-- In a tree, somewhere below the roots, a component of an unknown kind gives way to its
children. -/
inductive Hoists : List Component → List Component → Prop
  | child (before behind : List Component) {parent hoisted : Component}
      {left right : List Component} (listed : parent.children = left ++ hoisted :: right)
      (unknown : Widget.ofType? hoisted.type = none) :
      Hoists (before ++ parent :: behind)
        (before ++ { parent with children := left ++ (hoisted.children ++ right) } :: behind)
  | deeper (before behind : List Component) {parent : Component} {children : List Component}
      (inside : Hoists parent.children children) :
      Hoists (before ++ parent :: behind)
        (before ++ { parent with children := children } :: behind)

/-! ## Markup -/

theorem renderComponent_eq (c : Component) : renderComponent c =
    match Widget.ofType? c.type with
    | none => (renderAll c.children).map (joinPresent "\n")
    | some w => w.render c ((renderAll c.children).map (joinPresent "\n")) := by
  cases c
  exact renderComponent.eq_1 ..

theorem renderComponent_of_unknown {c : Component} (unknown : Widget.ofType? c.type = none) :
    renderComponent c = (renderAll c.children).map (joinPresent "\n") := by
  rw [renderComponent_eq, unknown]

/-- Children count for the markup of a component only as far as their own markup is joined. -/
theorem renderComponent_congr (c : Component) {children : List Component}
    (same : (renderAll children).map (joinPresent "\n") =
      (renderAll c.children).map (joinPresent "\n")) :
    renderComponent { c with children := children } = renderComponent c := by
  rw [renderComponent_eq, renderComponent_eq c]
  dsimp only
  rw [same]
  cases Widget.ofType? c.type with
  | none => rfl
  | some w => exact w.render_children c children _

theorem renderAll_eq_mapM (cs : List Component) : renderAll cs = cs.mapM renderComponent := by
  induction cs with
  | nil => rfl
  | cons c rest ih => rw [renderAll, List.mapM_cons, ih]

theorem renderAll_append (cs ds : List Component) : renderAll (cs ++ ds) = (do
    let first ← renderAll cs
    let others ← renderAll ds
    pure (first ++ others)) := by
  simp only [renderAll_eq_mapM, List.mapM_append]

/-- The markup of a list changes with the markup of one of its components only. -/
theorem renderAll_replace (before behind : List Component) {c d : Component}
    (same : renderComponent d = renderComponent c) :
    renderAll (before ++ d :: behind) = renderAll (before ++ c :: behind) := by
  rw [renderAll_append, renderAll_append, renderAll, renderAll, same]

/-- Among others, a component of an unknown kind is the markup of its children in one piece. -/
theorem renderAll_around (before behind : List Component) {c : Component}
    (unknown : Widget.ofType? c.type = none) : renderAll (before ++ c :: behind) = (do
      let front ← renderAll before
      let pieces ← renderAll c.children
      let back ← renderAll behind
      pure (front ++ joinPresent "\n" pieces :: back)) := by
  rw [renderAll_append, renderAll, renderComponent_of_unknown unknown]
  cases renderAll before with
  | error fault => rfl
  | ok front =>
    cases renderAll c.children with
    | error fault => rfl
    | ok pieces => cases renderAll behind <;> rfl

/-- Among others, its children are as many pieces as they are. -/
theorem renderAll_between (before between behind : List Component) :
    renderAll (before ++ (between ++ behind)) = (do
      let front ← renderAll before
      let pieces ← renderAll between
      let back ← renderAll behind
      pure (front ++ (pieces ++ back))) := by
  simp only [renderAll_append, bind_assoc, pure_bind]

/-- Children that stand in place of their parent are joined as they were. -/
theorem joined_splice (left right : List Component) {c : Component}
    (unknown : Widget.ofType? c.type = none) :
    (renderAll (left ++ (c.children ++ right))).map (joinPresent "\n") =
      (renderAll (left ++ c :: right)).map (joinPresent "\n") := by
  rw [renderAll_between, renderAll_around left right unknown]
  cases renderAll left with
  | error fault => rfl
  | ok front =>
    cases renderAll c.children with
    | error fault => rfl
    | ok pieces =>
      cases renderAll right with
      | error fault => rfl
      | ok back => exact congrArg Except.ok (Widget.joinPresent_splice "\n" front pieces back).symm

/-- The markup of each root stays the same. -/
theorem Hoists.renderAll_eq {tree hoisted : List Component} (step : Hoists tree hoisted) :
    renderAll hoisted = renderAll tree := by
  induction step with
  | @child before behind parent c left right listed unknown =>
    refine renderAll_replace before behind (renderComponent_congr parent ?_)
    rw [listed]
    exact joined_splice left right unknown
  | deeper before behind _ ih =>
    exact renderAll_replace before behind (renderComponent_congr _ (congrArg _ ih))

/-! ## Rules -/

/-- The rules of a component, if there are any. -/
def componentRule? (c : Component) : Option Text :=
  (Widget.ofType? c.type).bind fun w =>
    if (Rule.component w c).isEmpty then none else some (Rule.component w c)

theorem componentRules_eq (tree : List Component) :
    componentRules tree = (Tree.preorderAll tree).filterMap componentRule? := by
  rw [← Tree.walk_eq_preorderAll]
  rfl

theorem componentRule?_children (c : Component) (children : List Component) :
    componentRule? { c with children := children } = componentRule? c := rfl

theorem componentRules_append (cs ds : List Component) :
    componentRules (cs ++ ds) = componentRules cs ++ componentRules ds := by
  simp only [componentRules_eq, Tree.preorderAll_append, List.filterMap_append]

theorem componentRules_cons (c : Component) (rest : List Component) : componentRules (c :: rest) =
    (componentRule? c).toList ++ (componentRules c.children ++ componentRules rest) := by
  simp only [componentRules_eq, Tree.preorderAll, Tree.preorder_eq, List.filterMap_append,
    List.cons_append, List.filterMap_cons]
  cases componentRule? c <;> rfl

/-- A component of an unknown kind has no rules besides those of its children. -/
theorem componentRules_splice (before behind : List Component) {c : Component}
    (unknown : Widget.ofType? c.type = none) :
    componentRules (before ++ (c.children ++ behind)) = componentRules (before ++ c :: behind) := by
  have none : componentRule? c = none := by rw [componentRule?, unknown]; rfl
  simp only [componentRules_append, componentRules_cons, none, Option.toList_none, List.nil_append]

theorem Hoists.componentRules_eq {tree hoisted : List Component} (step : Hoists tree hoisted) :
    componentRules hoisted = componentRules tree := by
  induction step with
  | @child before behind parent c left right listed unknown =>
    have inside := componentRules_splice left right unknown
    rw [componentRules_append, componentRules_append, componentRules_cons, componentRules_cons,
      listed, componentRule?_children]
    dsimp only
    rw [inside]
  | deeper before behind _ ih =>
    rw [componentRules_append, componentRules_append, componentRules_cons, componentRules_cons,
      componentRule?_children]
    dsimp only
    rw [ih]

/-! ## Pages -/

/-- Of a root of an unknown kind only the gaps between the children can be told. -/
theorem markup_root (before behind : List Component) {root : Component}
    (unknown : Widget.ofType? root.type = none) :
    (∃ fault, markup (before ++ root :: behind) = .error fault ∧
        markup (before ++ (root.children ++ behind)) = .error fault) ∨
      ∃ front pieces back, renderAll root.children = .ok pieces ∧
        markup (before ++ root :: behind) = .ok (front ++ joinPresent "\n" pieces ++ back) ∧
        markup (before ++ (root.children ++ behind)) =
          .ok (front ++ joinPresent "\n\n" pieces ++ back) := by
  rw [markup, markup, renderAll_between, renderAll_around before behind unknown]
  cases renderAll before with
  | error fault => exact .inl ⟨fault, rfl, rfl⟩
  | ok ahead =>
    cases renderAll root.children with
    | error fault => exact .inl ⟨fault, rfl, rfl⟩
    | ok pieces =>
      cases renderAll behind with
      | error fault => exact .inl ⟨fault, rfl, rfl⟩
      | ok after =>
        obtain ⟨front, back, around⟩ :=
          Widget.exists_joinPresent_joined "\n\n" ahead pieces after
        have apart := Widget.joinPresent_splice "\n\n" ahead pieces after
        exact .inr ⟨front, pieces, back, rfl, congrArg Except.ok (around "\n"),
          congrArg Except.ok (apart.symm.trans (around "\n\n"))⟩

/-- Components of an unknown kind, however many and wherever they stand below the roots, can give
way to their children: the markup and the rules of the components stay the same. A root can, too:
the rules stay the same, and so does the markup but for the gaps between the children. -/
theorem hoisted_alike :
    (∀ {tree hoisted : List Component}, Relation.ReflTransGen Hoists tree hoisted →
      markup hoisted = markup tree ∧ componentSection hoisted = componentSection tree) ∧
    ∀ (before behind : List Component) {root : Component}, Widget.ofType? root.type = none →
      componentSection (before ++ (root.children ++ behind)) =
          componentSection (before ++ root :: behind) ∧
        ((∃ fault, markup (before ++ root :: behind) = .error fault ∧
            markup (before ++ (root.children ++ behind)) = .error fault) ∨
          ∃ front pieces back, renderAll root.children = .ok pieces ∧
            markup (before ++ root :: behind) = .ok (front ++ joinPresent "\n" pieces ++ back) ∧
            markup (before ++ (root.children ++ behind)) =
              .ok (front ++ joinPresent "\n\n" pieces ++ back)) := by
  refine ⟨fun steps => ?_, fun before behind root unknown => ⟨?_, markup_root before behind unknown⟩⟩
  · induction steps with
    | refl => exact ⟨rfl, rfl⟩
    | tail _ step ih =>
      refine ⟨?_, ?_⟩
      · rw [markup, step.renderAll_eq]
        exact ih.1
      · rw [componentSection, step.componentRules_eq]
        exact ih.2
  · rw [componentSection, componentRules_splice before behind unknown, componentSection]

/-- A component of an unknown kind with another one and a text in it. -/
def mystery : Component :=
  { id := "outer", type := "mystery", children := [
      { id := "inner", type := "riddle", children := [{ id := "a", type := "button" }] },
      { id := "b", type := "text" }] }

/-- What is shown of it. -/
def solved : List Component := [{ id := "a", type := "button" }, { id := "b", type := "text" }]

theorem hoisted_alike_mystery :
    Relation.ReflTransGen Hoists [{ id := "box", type := "grid", children := [mystery] }]
      [{ id := "box", type := "grid", children := solved }] ∧
    markup [{ id := "box", type := "grid", children := solved }] =
      markup [{ id := "box", type := "grid", children := [mystery] }] ∧
    componentSection [{ id := "box", type := "grid", children := solved }] =
      componentSection [{ id := "box", type := "grid", children := [mystery] }] ∧
    Widget.ofType? mystery.type = none ∧
    componentSection mystery.children = componentSection [mystery] ∧
    ∃ front pieces back, renderAll mystery.children = .ok pieces ∧
      markup [mystery] = .ok (front ++ joinPresent "\n" pieces ++ back) ∧
      markup mystery.children = .ok (front ++ joinPresent "\n\n" pieces ++ back) := by
  have outer : Hoists [{ id := "box", type := "grid", children := [mystery] }]
      [{ id := "box", type := "grid", children := mystery.children }] :=
    @Hoists.child [] [] _ mystery [] [] rfl (by decide)
  have inner : Hoists [{ id := "box", type := "grid", children := mystery.children }]
      [{ id := "box", type := "grid", children := solved }] :=
    @Hoists.child [] [] { id := "box", type := "grid", children := mystery.children }
      { id := "inner", type := "riddle", children := [{ id := "a", type := "button" }] } [] _ rfl
      (by decide)
  have steps := (Relation.ReflTransGen.single outer).tail inner
  obtain ⟨page, rules⟩ := hoisted_alike.1 steps
  have unknown : Widget.ofType? mystery.type = none := by decide
  obtain ⟨same, ⟨_, fails, -⟩ | made⟩ := hoisted_alike.2 [] [] unknown
  · cases fails
  · exact ⟨steps, page, rules, unknown, same, made⟩

end Site

end StaticSite
