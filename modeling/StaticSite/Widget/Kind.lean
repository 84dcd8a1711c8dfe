import StaticSite.Value.Basic

/-! # Kinds of widgets

The types of components that the generator knows, and the registry in which they are looked up.
-/

namespace StaticSite

/-- A kind of widget. -/
inductive Widget
  | container
  | region
  | grid
  | flex
  | spacer
  | heading
  | text
  | button
  | link
  | image
  | hero
  | features
  | callToAction
  | footer
  | navigation
  | form
  | input
  | textarea
  | select
  | checkbox
  | radio
  | label
  | formGroup
  | submitButton
  deriving DecidableEq, Repr

namespace Widget

/-- All kinds in their order. -/
def all : List Widget := [
  .container, .region, .grid, .flex, .spacer, .heading, .text, .button, .link, .image, .hero,
  .features, .callToAction, .footer, .navigation, .form, .input, .textarea, .select, .checkbox,
  .radio, .label, .formGroup, .submitButton]

/-- The type that a component of this kind has in a tree. -/
def type : Widget → String
  | .container => "container"
  | .region => "section"
  | .grid => "grid"
  | .flex => "flex"
  | .spacer => "spacer"
  | .heading => "heading"
  | .text => "text"
  | .button => "button"
  | .link => "link"
  | .image => "image"
  | .hero => "hero"
  | .features => "features"
  | .callToAction => "cta"
  | .footer => "footer"
  | .navigation => "navigation"
  | .form => "form"
  | .input => "input"
  | .textarea => "textarea"
  | .select => "select"
  | .checkbox => "checkbox"
  | .radio => "radio"
  | .label => "label"
  | .formGroup => "formGroup"
  | .submitButton => "submitButton"

/-- The name that people see. -/
def title : Widget → String
  | .container => "Container"
  | .region => "Section"
  | .grid => "Grid"
  | .flex => "Flex Container"
  | .spacer => "Spacer"
  | .heading => "Heading"
  | .text => "Text"
  | .button => "Button"
  | .link => "Link"
  | .image => "Image"
  | .hero => "Hero Section"
  | .features => "Features Grid"
  | .callToAction => "Call to Action"
  | .footer => "Footer"
  | .navigation => "Navigation Bar"
  | .form => "Form"
  | .input => "Input"
  | .textarea => "Text Area"
  | .select => "Select"
  | .checkbox => "Checkbox"
  | .radio => "Radio Group"
  | .label => "Label"
  | .formGroup => "Form Group"
  | .submitButton => "Submit Button"

/-- The group that a kind belongs to. -/
def category : Widget → String
  | .container | .region | .grid | .flex | .spacer => "layout"
  | .heading | .text | .button | .link => "content"
  | .image => "media"
  | .hero | .features | .callToAction | .footer | .navigation => "blocks"
  | .form | .input | .textarea | .select | .checkbox | .radio | .label | .formGroup
  | .submitButton => "form"

/-- Whether the markup of a kind holds the markup of the component's children. -/
def acceptsChildren : Widget → Bool
  | .container | .region | .grid | .flex | .hero | .form | .formGroup => true
  | _ => false

/-- The kind of a component type. -/
def ofType? (type : String) : Option Widget := all.find? (·.type == type)

theorem mem_all (w : Widget) : w ∈ all := by cases w <;> decide

/-- Looking a kind up by its type finds it. -/
theorem ofType?_type (w : Widget) : ofType? w.type = some w := by cases w <;> decide

/-- What is found by a type has that type. -/
theorem type_of_ofType? {type : String} {w : Widget} (found : ofType? type = some w) :
    w.type = type := by
  simpa using List.find?_some found

end Widget

/-- A registry of kinds, in the order of registration. -/
structure Registry where
  entries : List Widget := []
  deriving Repr

namespace Registry

/-- The kind that is registered for a type. -/
def get? (r : Registry) (type : String) : Option Widget := r.entries.find? (·.type == type)

/-- Registers a kind, unless its type is taken. -/
def register (r : Registry) (w : Widget) : Option Registry :=
  match r.get? w.type with
  | some _ => none
  | none => some ⟨r.entries ++ [w]⟩

/-- The wording for a type that is taken. -/
def takenMessage (type : String) : Text :=
  "Component type '" ++ type ++ "' already registered"

end Registry

end StaticSite
