import StaticSite.Proofs.Result
import StaticSite.Proofs.Widget.Render
import StaticSite.Site.Markup
import StaticSite.Tree.Walk

/-! # The markup of a page mirrors its tree

Read back, the elements with an id are the components that are shown: a component of a kind that is
not known gives way to its children, and kinds that hold no children leave them out.
-/

namespace StaticSite.Site

open Markup Widget

mutual

/-- What is shown of a component. -/
def shown : Component → List Component
  | ⟨id, type, displayName, props, styles, children⟩ =>
      match Widget.ofType? type with
      | none => shownAll children
      | some w =>
          [⟨id, type, displayName, props, styles, if w.acceptsChildren then shownAll children else []⟩]

/-- What is shown of components. -/
def shownAll : List Component → List Component
  | [] => []
  | c :: rest => shown c ++ shownAll rest

end

mutual

/-- The outline of a component and those below it. -/
def outline : Component → Outline
  | ⟨id, _, _, _, _, children⟩ => .element id.toList (outlines children)

/-- The outlines of components. -/
def outlines : List Component → List Outline
  | [] => []
  | c :: rest => outline c :: outlines rest

end

/-- Components of which every text that their markup holds as it is marks up nothing. -/
def PlainTexts (cs : List Component) : Prop :=
  ∀ c ∈ cs, ∀ w ∈ Widget.ofType? c.type, ∀ t ∈ w.rawTexts c, PlainText t

theorem outlines_append (cs ds : List Component) :
    outlines (cs ++ ds) = outlines cs ++ outlines ds := by
  induction cs with
  | nil => rfl
  | cons c rest ih => rw [List.cons_append, outlines, ih, outlines, List.cons_append]

theorem outlines_shownAll (cs : List Component) :
    (cs.map fun c => outlines (shown c)).flatten = outlines (shownAll cs) := by
  induction cs with
  | nil => rfl
  | cons c rest ih => rw [List.map_cons, List.flatten_cons, ih, shownAll, outlines_append]

/-- The texts that markup holds as they are do not come from children. -/
theorem rawTexts_children (w : Widget) (c : Component) (children : List Component) :
    w.rawTexts { c with children := children } = w.rawTexts c := by
  cases w <;> rfl

/-- The markup of components that are fragments, joined. -/
theorem fragment_joined {separator inner : Text} (between : Fragment separator [])
    {cs : List Component}
    (rendered : (renderAll cs).map (joinPresent separator) = .ok inner)
    (each : ∀ ts, renderAll cs = .ok ts →
      List.Forall₂ Fragment ts (cs.map fun c => outlines (shown c))) :
    Fragment inner (outlines (shownAll cs)) := by
  obtain ⟨ts, texts, rfl⟩ := exists_of_map rendered
  exact outlines_shownAll cs ▸ fragment_joinPresent between (each ts texts)

/-- Where components have markup, each of them has. -/
theorem exists_of_renderAll_cons {c : Component} {rest : List Component} {ts : List Text}
    (rendered : renderAll (c :: rest) = .ok ts) : ∃ first others,
      renderComponent c = .ok first ∧ renderAll rest = .ok others ∧ ts = first :: others := by
  rw [renderAll] at rendered
  obtain ⟨first, here, rendered⟩ := exists_of_bind_eq_ok rendered
  obtain ⟨others, there, rendered⟩ := exists_of_bind_eq_ok rendered
  exact ⟨first, others, here, there, (Except.ok.inj rendered).symm⟩

mutual

/-- The markup of a component is a fragment with the outline of what is shown of it. -/
theorem fragment_renderComponent : ∀ (c : Component) {t : Text}, renderComponent c = .ok t →
    PlainTexts (Tree.preorderAll (shown c)) → Fragment t (outlines (shown c))
  | ⟨id, type, displayName, props, styles, children⟩, t, rendered, plain => by
    have newline : Fragment "\n" [] := .plain (by decide)
    rw [renderComponent] at rendered
    rw [shown] at plain ⊢
    cases known : Widget.ofType? type with
    | none =>
      simp only [known] at rendered plain ⊢
      exact fragment_joined newline rendered fun ts texts =>
        fragments_renderAll children texts plain
    | some w =>
      simp only [known] at rendered plain ⊢
      rw [Tree.preorderAll, Tree.preorder, Tree.preorderAll, List.append_nil] at plain
      obtain ⟨own, others⟩ := List.forall_mem_cons.mp plain
      have below (accepts : w.acceptsChildren = true) (inner : Text)
          (joined : (renderAll children).map (joinPresent "\n") = .ok inner) :
          Fragment inner (outlines (shownAll children)) := by
        rw [if_pos accepts] at others
        exact fragment_joined newline joined fun ts texts =>
          fragments_renderAll children texts others
      have element := render_fragment rendered (rawTexts_children w _ _ ▸ own w known) below
      rwa [outlines, outline, outlines, apply_ite outlines]

/-- The markup of each component is a fragment with the outline of what is shown of it. -/
theorem fragments_renderAll : ∀ (cs : List Component) {ts : List Text}, renderAll cs = .ok ts →
    PlainTexts (Tree.preorderAll (shownAll cs)) →
    List.Forall₂ Fragment ts (cs.map fun c => outlines (shown c))
  | [], ts, rendered, _ => by
    obtain rfl := Except.ok.inj rendered
    exact .nil
  | c :: rest, ts, rendered, plain => by
    obtain ⟨text, texts, first, others, rfl⟩ := exists_of_renderAll_cons rendered
    rw [shownAll, Tree.preorderAll_append] at plain
    obtain ⟨here, later⟩ := List.forall_mem_append.mp plain
    exact .cons (fragment_renderComponent c first here) (fragments_renderAll rest others later)

end

/-- Reading the markup of a tree gives the tree back: the elements with an id are what is shown of
it, in their order and nesting, and the class of each starts with its id. -/
theorem read_markup {tree : List Component} {t : Text} (rendered : markup tree = .ok t)
    (plain : PlainTexts (Tree.preorderAll (shownAll tree))) :
    ∃ nodes, read t = .ok nodes ∧ outlineAll nodes = outlines (shownAll tree) ∧
      ClassedAll nodes := by
  have gap : Fragment "\n\n" [] := .plain (by decide)
  have whole := fragment_joined gap rendered fun ts texts => fragments_renderAll tree texts plain
  exact whole.exists_read

/-- A tree with a component of an unknown kind, a heading that leaves its child out, and an id that
needs escaping. -/
def crookedTree : List Component := [
  { id := "\"<&", type := "container", children := [
      { id := "lost", type := "mystery", children := [
          { id := "title", type := "heading", children := [{ id := "deep", type := "text" }] }] }] },
  { id := "end", type := "spacer" }]

theorem read_markup_crookedTree : ∃ t nodes, markup crookedTree = .ok t ∧ read t = .ok nodes ∧
    outlineAll nodes = [
      .element "\"<&".toList [.element "title".toList []], .element "end".toList []] ∧
    ClassedAll nodes := by
  have plain : PlainTexts (Tree.preorderAll (shownAll crookedTree)) := by
    unfold PlainTexts PlainText
    decide
  obtain ⟨nodes, accepted, mirrored, classed⟩ := read_markup rfl plain
  exact ⟨_, nodes, rfl, accepted, mirrored, classed⟩

end StaticSite.Site
