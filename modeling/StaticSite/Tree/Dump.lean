import StaticSite.Tree.Component

/-! # Dumping trees

A tree as raw data again: every known field under its first spelling, defaults included, and
nothing for what is absent.
-/

namespace StaticSite

namespace Dump

/-- A field that is there only with a value. -/
def optional (key : String) : Option String → Fields
  | some s => [(key, .text s)]
  | none => []

/-- Fields without the ones that are null. -/
def present (fields : Fields) : Fields := fields.filter fun (_, v) => !(v matches .null)

/-- Properties as a table. -/
def properties (ps : Properties) : Value := .table (ps.map fun (name, s) => (name, s.toValue))

/-- A stop of an animation. -/
def keyframe (k : Keyframe) : Value :=
  .table [("time", .float k.time), ("properties", properties k.properties)]

/-- How an animation runs. -/
def playback (p : Playback) : Value :=
  .table ([("duration", p.duration.toValue), ("delay", p.delay.toValue), ("easing", .text p.easing),
    ("loop", .bool p.loop)] ++ optional "direction" p.direction)

/-- An animation. -/
def animation (a : Animation) : Value :=
  .table [("id", .text a.id), ("name", .text a.name), ("trigger", .text a.trigger),
    ("timeline", .list (a.timeline.map keyframe)), ("options", playback a.playback)]

/-- The code of a component. -/
def customCode (c : CustomCode) : Value :=
  .table (optional "css" c.css ++ optional "javascript" c.javascript ++
    optional "beforeMount" c.beforeMount ++ optional "onMount" c.onMount ++
    optional "onClick" c.onClick ++ optional "onHover" c.onHover ++ optional "onScroll" c.onScroll)

/-- Content as a field. -/
def content : Content → Fields
  | .none => []
  | .text s => [("content", .text s)]
  | .block fields => [("content", .table fields)]

/-- Properties of a component. -/
def props (p : Props) : Value :=
  .table (content p.content ++
    [("attributes", properties p.attributes), ("animations", .list (p.animations.map animation))] ++
    (match p.customCode with
      | some c => [("customCode", customCode c)]
      | none => []) ++ present p.extra)

/-- Styles of a component. -/
def styles (s : Styles) : Value :=
  .table (("base", properties s.base) :: present s.variants)

mutual

/-- A component and everything below it. -/
def component : Component → Value
  | ⟨id, type, displayName, componentProps, componentStyles, children⟩ =>
      .table [("id", .text id), ("type", .text type), ("displayName", .text displayName),
        ("props", props componentProps), ("styles", styles componentStyles),
        ("children", .list (components children))]

/-- Components, each on its own. -/
def components : List Component → List Value
  | [] => []
  | c :: rest => component c :: components rest

end

end Dump

/-- A tree as raw data. -/
def Tree.dump (tree : List Component) : Value := .list (Dump.components tree)

end StaticSite
