import StaticSite.Report.Notice
import StaticSite.Site.Rule
import StaticSite.Text.Quoted
import StaticSite.Tree.Walk

/-! # Animations

Every animation has a block of keyframes, from its own stops or from a preset, and a rule that
binds the block to its component as the trigger says. A trigger that is not known binds nothing.
-/

namespace StaticSite.Animation

open Property

/-- The name of the preset for names that have none. -/
def defaultPreset : String := "Fade In"

/-- The stops of the presets, each as when and what. -/
def presets : List (String × List (String × String)) := [
  ("Fade In", [("from", "opacity: 0;"), ("to", "opacity: 1;")]),
  ("Slide In Left",
    [("from", "transform: translateX(-100%); opacity: 0;"),
      ("to", "transform: translateX(0); opacity: 1;")]),
  ("Slide In Right",
    [("from", "transform: translateX(100%); opacity: 0;"),
      ("to", "transform: translateX(0); opacity: 1;")]),
  ("Slide In Top",
    [("from", "transform: translateY(-100%); opacity: 0;"),
      ("to", "transform: translateY(0); opacity: 1;")]),
  ("Slide In Bottom",
    [("from", "transform: translateY(100%); opacity: 0;"),
      ("to", "transform: translateY(0); opacity: 1;")]),
  ("Scale In",
    [("from", "transform: scale(0); opacity: 0;"), ("to", "transform: scale(1); opacity: 1;")]),
  ("Bounce In",
    [("0%", "transform: scale(0); opacity: 0;"), ("60%", "transform: scale(1.2); opacity: 1;"),
      ("100%", "transform: scale(1);")]),
  ("Pulse",
    [("0%", "transform: scale(1);"), ("50%", "transform: scale(1.05);"),
      ("100%", "transform: scale(1);")]),
  ("Shake",
    [("0%, 100%", "transform: translateX(0);"),
      ("10%, 30%, 50%, 70%, 90%", "transform: translateX(-10px);"),
      ("20%, 40%, 60%, 80%", "transform: translateX(10px);")]),
  ("Float", [("0%, 100%", "transform: translateY(0);"), ("50%", "transform: translateY(-20px);")]),
  ("Spin", [("from", "transform: rotate(0deg);"), ("to", "transform: rotate(360deg);")])]

/-- A stop of a block of keyframes. -/
def stopText (time declarations : Text) : Text :=
  "  " ++ time ++ " \x7b " ++ declarations ++ " \x7d"

/-- The stops of a preset, those of the default one for a name that has none. -/
def presetStops (name : String) : List Text :=
  let stops := (presets.lookup name).getD ((presets.lookup defaultPreset).getD [])
  stops.map fun (time, declarations) => stopText time declarations

/-- A stop of a timeline; its time is written in percent. -/
def timelineStop (k : Keyframe) : Text :=
  let declarations := k.properties.map fun (name, value) =>
    (Declaration.ofTimeline name value).text
  stopText (Number.plainFloat (k.time * 100.0) ++ "%") (Text.joinWith "; " declarations)

/-- The name of an animation's keyframes. -/
def keyframesName (a : StaticSite.Animation) : Text := "animation-" ++ a.id

/-- The block of keyframes of an animation. -/
def keyframes (a : StaticSite.Animation) : Text :=
  let stops := if a.timeline.isEmpty then presetStops a.name else a.timeline.map timelineStop
  Text.unlines (Rule.blockLines [] ("@keyframes " ++ keyframesName a) stops)

/-- How an animation runs, in one declaration. -/
def shorthand (a : StaticSite.Animation) : Text :=
  let iterations := if a.playback.loop then "infinite" else "1"
  let direction := match a.playback.direction with
    | some d => if d.isEmpty then "normal" else d
    | none => "normal"
  keyframesName a ++ " " ++ a.playback.duration.styleText ++ "ms " ++ a.playback.easing ++ " " ++
    a.playback.delay.styleText ++ "ms " ++ iterations ++ " " ++ direction ++ " both"

/-- The triggers that bind animations. -/
def triggers : List String := ["onLoad", "onHover", "onScroll", "onClick", "continuous"]

/-- What follows the component's selector for a trigger. -/
def triggerState? (trigger : String) : Option String :=
  [("onLoad", ""), ("continuous", ""), ("onHover", ":hover"), ("onScroll", ".in-view"),
    ("onClick", ".clicked")].lookup trigger

/-- The triggers are those that have a state. -/
theorem triggerState?_isSome : ∀ t ∈ triggers, (triggerState? t).isSome := by decide

/-- The rule that binds an animation to a component. -/
def triggerRule? (id : String) (a : StaticSite.Animation) : Option Text :=
  (triggerState? a.trigger).map fun state =>
    Text.unlines (Rule.blockLines [] (Rule.selector id ++ state)
      ["  animation: " ++ shorthand a ++ ";"])

/-- Puts an empty line between pieces. -/
def separate (pieces : List Text) : Text := Text.joinWith "\n\n" pieces

/-- The animations of a tree in document order. -/
def ofTree (tree : List Component) : List StaticSite.Animation :=
  (Tree.walk tree).flatMap (·.props.animations)

/-- The rules that bind the animations of a component. -/
def triggerRules (c : Component) : List Text := c.props.animations.filterMap (triggerRule? c.id)

/-- The animations of a tree: all keyframes, then all rules. -/
def compile (tree : List Component) : Text :=
  let animations := ofTree tree
  if animations.isEmpty then []
  else
    separate (("/* Animations */\n" ++ separate (animations.map keyframes)) ::
      (Tree.walk tree).flatMap triggerRules)

/-- The notice that an animation is bound to nothing. -/
def unboundNotice (id : String) (a : StaticSite.Animation) : List Notice :=
  match triggerState? a.trigger with
  | some _ => []
  | none =>
      [⟨.debug, .animations, "Animation " ++ a.id ++ " on " ++ id ++ " has unknown trigger " ++
        Text.quoted a.trigger ++ "; no rule emitted"⟩]

/-- The notices about the animations of a tree. -/
def notices (tree : List Component) : List Notice :=
  (Tree.walk tree).flatMap fun c => c.props.animations.flatMap (unboundNotice c.id)

end StaticSite.Animation
