import StaticSite.Report.Notice
import StaticSite.Text.Quoted
import StaticSite.Widget.Render

/-! # The markup of a page

Components are rendered in document order. A component of a kind that is not known has no element
of its own: its children stand in its place.
-/

namespace StaticSite.Site

open Widget (joinPresent)

mutual

/-- The markup of a component. -/
def renderComponent : Component → Except Widget.Fault Text
  | ⟨id, type, displayName, props, styles, children⟩ =>
      let inner := (renderAll children).map (joinPresent "\n")
      match Widget.ofType? type with
      | none => inner
      | some w => w.render ⟨id, type, displayName, props, styles, children⟩ inner

/-- The markup of components, each on its own. -/
def renderAll : List Component → Except Widget.Fault (List Text)
  | [] => .ok []
  | c :: rest => do
      let first ← renderComponent c
      let others ← renderAll rest
      pure (first :: others)

end

/-- The markup of a tree. -/
def markup (tree : List Component) : Except Widget.Fault Text :=
  (renderAll tree).map (joinPresent "\n\n")

/-- The notice that a component of an unknown kind has no element. -/
def hoistNotice (id type : String) : Notice :=
  ⟨.debug, .markup, "Skipping markup for component " ++ id ++ " of unknown type " ++
    Text.quoted type⟩

/-- The notice that a component's children are left out. -/
def droppedNotice (id type : String) : Notice :=
  ⟨.debug, .markup, "Component " ++ id ++ " (" ++ type ++ ") does not render children"⟩

mutual

/-- The notices of rendering a component, and whether rendering gets to its end. -/
def componentNotices : Component → List Notice × Bool
  | ⟨id, type, displayName, props, styles, children⟩ =>
      match Widget.ofType? type with
      | none =>
          let (below, complete) := allNotices children
          (hoistNotice id type :: below, complete)
      | some w =>
          if w.acceptsChildren then allNotices children
          else
            let c : Component := ⟨id, type, displayName, props, styles, children⟩
            (if children.isEmpty then [] else [droppedNotice id type],
              (w.render c (.ok [])).isOk)

/-- The notices of rendering components up to the first one that fails. -/
def allNotices : List Component → List Notice × Bool
  | [] => ([], true)
  | c :: rest =>
      let (first, complete) := componentNotices c
      if complete then
        let (others, finished) := allNotices rest
        (first ++ others, finished)
      else (first, false)

end

/-- The notices of rendering a tree. -/
def markupNotices (tree : List Component) : List Notice := (allNotices tree).1

end StaticSite.Site
