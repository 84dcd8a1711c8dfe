import StaticSite.Check.Scalar

/-! # Component trees

The declarative tree that a page is made from. Types of components and triggers of animations are
plain names, so that a tree may use names the generator does not know; what is read by name beyond
the known properties stays raw data.
-/

namespace StaticSite

/-- Style properties by name. -/
abbrev Properties := List (String × Scalar)

/-- A stop of an animation: its time as a fraction of the duration. -/
structure Keyframe where
  time : Float
  properties : Properties
  deriving Repr

/-- How an animation runs; times are in milliseconds. -/
structure Playback where
  duration : Quantity := .int 1000
  delay : Quantity := .int 0
  easing : String := "ease"
  loop : Bool := false
  direction : Option String := none
  deriving Repr

/-- An animation of a component. Without stops of its own it has those of the preset that its name
says. -/
structure Animation where
  id : String
  name : String := "Fade In"
  trigger : String := "onLoad"
  timeline : List Keyframe := []
  playback : Playback := {}
  deriving Repr

/-- Code of a component's author. -/
structure CustomCode where
  css : Option String := none
  javascript : Option String := none
  beforeMount : Option String := none
  onMount : Option String := none
  onClick : Option String := none
  onHover : Option String := none
  onScroll : Option String := none
  deriving DecidableEq, Repr

/-- Code of a page's author. -/
structure PageCode where
  css : Option String := none
  javascript : Option String := none
  headHtml : Option String := none
  deriving DecidableEq, Repr

/-- The content of a component: a text, or the named parts of a block. -/
inductive Content
  | none
  | text (s : String)
  | block (fields : Fields)
  deriving Repr

/-- The properties of a component; what a type of component reads besides the known ones is
`extra`. -/
structure Props where
  content : Content := .none
  attributes : Properties := []
  animations : List Animation := []
  customCode : Option CustomCode := none
  extra : Fields := []
  deriving Repr

/-- The styles of a component: the base, and raw variants by name. -/
structure Styles where
  base : Properties := []
  variants : Fields := []
  deriving Repr

/-- A component with its children. -/
structure Component where
  id : String
  type : String
  displayName : String := ""
  props : Props := {}
  styles : Styles := {}
  children : List Component := []
  deriving Repr

/-- A text that is there and not blank. -/
def isPresent : Option String → Bool
  | some s => !Text.isBlank s.toList
  | none => false

namespace CustomCode

/-- Whether any piece of behaviour is present. -/
def hasScript (code : CustomCode) : Bool :=
  [code.beforeMount, code.onMount, code.onClick, code.onHover, code.onScroll,
    code.javascript].any isPresent

/-- Whether nothing is present. -/
def isEmpty (code : CustomCode) : Bool := !code.hasScript && !isPresent code.css

end CustomCode

namespace Props

/-- A property that only some types of component have. -/
def get? (props : Props) (key : String) : Option Value := Fields.get? props.extra key

/-- A part of block content. -/
def part? (props : Props) (key : String) : Option Value :=
  match props.content with
  | .block fields => Fields.get? fields key
  | _ => none

end Props

/-- A variant of the styles: the fields of its table, none for anything else. -/
def Styles.variant (styles : Styles) (name : String) : Fields :=
  ((Fields.get? styles.variants name).bind Value.fields?).getD []

end StaticSite
