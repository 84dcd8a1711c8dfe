import StaticSite.Text.Escaped
import StaticSite.Tree.Component

/-! # Elements of widgets

How a component becomes an element: its class and id, the flags that the page's script reads for
its animations, and the attributes of its kind.
-/

namespace StaticSite.Widget

/-- An attribute with a value, or one that is only there. -/
abbrev Attribute := String × Option Text

/-- An attribute with a text for its value. -/
def attr (name : String) (value : Text) : Attribute := (name, some value)

/-- An attribute with raw data for its value: null leaves only the name. -/
def rawAttr (name : String) : Value → Attribute
  | .null => (name, none)
  | v => (name, some v.plain)

/-- Writes an attribute. -/
def attributeText : Attribute → Text
  | (name, none) => name
  | (name, some value) => name ++ "=\"" ++ Text.escapeAttribute value ++ "\""

/-- Writes attributes with spaces between them. -/
def attributesText (attributes : List Attribute) : Text :=
  Text.joinWith " " (attributes.map attributeText)

/-- The flags that the page's script reads for a component's animations. -/
def animationFlags (c : Component) : List Attribute :=
  let scroll := c.props.animations.any (·.trigger == "onScroll")
  let click := c.props.animations.find? (·.trigger == "onClick")
  (if scroll then [attr "data-scroll-animation" "true"] else []) ++
    (match click with
      | some a =>
          [attr "data-click-animation" "true",
            attr "data-animation-duration" a.playback.duration.styleText]
      | none => [])

/-- The attributes of a component's own element. -/
def ownAttributes (c : Component) (classes : List String) (attributes : List Attribute) :
    List Attribute :=
  let classNames := ("c-" ++ c.id) :: classes
  [attr "class" (Text.joinWith " " (classNames.map String.toList)), attr "id" c.id] ++
    animationFlags c ++ attributes

/-- The start tag of a component. -/
def startTag (c : Component) (tag : String) (classes : List String)
    (attributes : List Attribute) : Text :=
  "<" ++ tag ++ " " ++ attributesText (ownAttributes c classes attributes) ++ ">"

/-- The only tag of a component without content. -/
def voidTag (c : Component) (tag : String) (attributes : List Attribute) : Text :=
  "<" ++ tag ++ " " ++ attributesText (ownAttributes c [] attributes) ++ " />"

/-- An end tag. -/
def endTag (tag : String) : Text := "</" ++ tag ++ ">"

/-- A component with its content on the line of its tags. -/
def element (c : Component) (tag : String) (attributes : List Attribute) (inner : Text) : Text :=
  startTag c tag [] attributes ++ inner ++ endTag tag

/-- A component with its content on lines of their own. -/
def block (c : Component) (tag : String) (classes : List String) (attributes : List Attribute)
    (body : Text) : Text :=
  startTag c tag classes attributes ++ "\n" ++ body ++ "\n" ++ endTag tag

/-- Joins the pieces that are not empty. -/
def joinPresent (separator : Text) (pieces : List Text) : Text :=
  Text.joinWith separator (pieces.filter (!·.isEmpty))

end StaticSite.Widget
