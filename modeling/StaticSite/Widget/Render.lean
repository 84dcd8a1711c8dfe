import StaticSite.Text.Lines
import StaticSite.Text.LowerCase
import StaticSite.Widget.Element
import StaticSite.Widget.Kind

/-! # Markup of widgets

The markup of each kind of widget. Raw data goes into it as it is, in its plain form; only
attribute values and the value of a text area are escaped.
-/

namespace StaticSite.Widget

/-- Why a component has no markup: data that should have members has none. -/
structure Fault where
  typeName : String
  deriving DecidableEq, Repr

/-- The wording of a fault. -/
def Fault.message (f : Fault) : Text := "'" ++ f.typeName ++ "' object is not iterable"

/-- The members of optional data: none for what is absent or empty. -/
def membersOf (v : Value) : Except Fault (List Value) :=
  if v.isTruthy then
    match v.members? with
    | some members => .ok members
    | none => .error ⟨v.typeName⟩
  else .ok []

/-- The plain form of data, or a default where there is none. -/
def plainOr (default : String) (v : Option Value) : Text :=
  match v with
  | some v => v.plain
  | none => default

/-- Text content, or a default where it is absent, empty or no text. -/
def textContent (c : Component) (default : String) : Text :=
  match c.props.content with
  | .text s => if s.isEmpty then default else s
  | _ => default

/-- A named attribute of a component as raw data, or a default. -/
def attributeOr (c : Component) (name default : String) : Text :=
  ((c.props.attributes.lookup name).map fun s => s.toValue.plain).getD default

/-- A property of a component as an attribute, or a default. -/
def propertyAttr (c : Component) (name default : String) : Attribute :=
  rawAttr name ((c.props.get? name).getD (.text default))

/-- Writes an element that is no component. -/
def wrap (start : String) (inner : Text) (tag : String) : Text := start ++ inner ++ endTag tag

/-! ## Content -/

/-- The tags of headings. -/
def headingLevels : List String := ["h1", "h2", "h3", "h4", "h5", "h6"]

/-- The tag of a heading: the level it asks for, where there is such a level. -/
def headingTag (c : Component) : String :=
  let level := String.ofList (Text.lower (attributeOr c "level" "h2"))
  if headingLevels.elem level then level else "h2"

/-! ## Blocks -/

/-- A field of a member that is a table. -/
def memberField (name : String) (fields : Fields) : Text := plainOr "" (Fields.get? fields name)

/-- The features that a block shows when none are given. -/
def defaultFeatures : Value :=
  let feature (icon title description : String) : Value :=
    .table [("icon", .text icon), ("title", .text title), ("description", .text description)]
  .list [
    feature "🚀" "Fast" "Lightning quick performance",
    feature "🎨" "Beautiful" "Stunning designs out of the box",
    feature "🔧" "Flexible" "Customize everything"]

/-- The links that a navigation shows when none are given. -/
def defaultLinks : Value :=
  let link (label target : String) : Value := .table [("text", .text label), ("href", .text target)]
  .list [link "Home" "#", link "About" "#about", link "Services" "#services",
    link "Contact" "#contact"]

/-- The links that a footer shows when none are given. -/
def defaultFooterLinks : Value := .list [.text "Privacy", .text "Terms", .text "Contact"]

/-- One feature. -/
def featureText (fields : Fields) : Text :=
  Text.unlines [
    "<div class=\"feature-item\">",
    wrap "<div class=\"feature-icon\">" (memberField "icon" fields) "div",
    wrap "<h3>" (memberField "title" fields) "h3",
    wrap "<p>" (memberField "description" fields) "p",
    "</div>"]

/-- One link of a navigation. -/
def navigationLinkText (fields : Fields) : Text :=
  "<a href=\"" ++ Text.escapeAttribute (plainOr "#" (Fields.get? fields "href")) ++
    "\" class=\"nav-link\">" ++ memberField "text" fields ++ "</a>"

/-- One link of a footer. -/
def footerLinkText (label : Value) : Text :=
  wrap "<a href=\"#\" class=\"footer-link\">" label.plain "a"

/-- The part of a block, or a default. -/
def part (c : Component) (name default : String) : Text := plainOr default (c.props.part? name)

/-- The introduction of a hero block. -/
def heroText (c : Component) : Text :=
  Text.unlines [
    "<div class=\"hero-content\">",
    wrap "<h1>" (part c "heading" "Welcome to Your Site") "h1",
    wrap "<p>" (part c "subheading" "Build something amazing") "p",
    wrap "<button class=\"hero-btn\">" (part c "buttonText" "Get Started") "button",
    "</div>"]

/-- A block of features. -/
def featuresText (c : Component) : Except Fault Text := do
  let features ← membersOf ((c.props.part? "features").getD defaultFeatures)
  let items := Text.unlines ((features.filterMap Value.fields?).map featureText)
  pure (block c "section" ["features"] []
    (Text.unlines ["<div class=\"features-grid\">", items, "</div>"]))

/-- A call to action. -/
def callToActionText (c : Component) : Text :=
  block c "section" ["cta"] [] (Text.unlines [
    "<div class=\"cta-content\">",
    wrap "<h2>" (part c "heading" "Ready to get started?") "h2",
    wrap "<p>" (part c "description" "Join thousands of satisfied customers today.") "p",
    wrap "<button class=\"cta-btn\">" (part c "buttonText" "Start Free Trial") "button",
    "</div>"])

/-- A footer. -/
def footerText (c : Component) : Except Fault Text := do
  let links ← membersOf ((c.props.part? "links").getD defaultFooterLinks)
  let labels := Text.joinWith " · " (links.map footerLinkText)
  pure (block c "footer" [] [] (Text.unlines [
    wrap "<div class=\"footer-links\">" labels "div",
    wrap "<p class=\"footer-copyright\">" (part c "copyright" "© Your Company. All rights reserved.")
      "p"]))

/-- A navigation bar. -/
def navigationText (c : Component) : Except Fault Text := do
  let links ← membersOf ((c.props.part? "links").getD defaultLinks)
  let items := Text.unlines ((links.filterMap Value.fields?).map navigationLinkText)
  pure (block c "nav" [] [] (Text.unlines [
    "<div class=\"nav-container\">",
    wrap "<div class=\"nav-logo\">" (part c "logo" "Your Logo") "div",
    "<div class=\"nav-links\">",
    items,
    "</div>",
    "</div>"]))

/-! ## Forms -/

/-- A choice of a form field. -/
structure Choice where
  value : Text
  label : Text

/-- A choice as data gives it: a table with a value and a label, or the value alone. -/
def Choice.ofValue : Value → Choice
  | .table fields =>
      let value := memberField "value" fields
      ⟨value, ((Fields.get? fields "label").map Value.plain).getD value⟩
  | v => ⟨v.plain, v.plain⟩

/-- The choices of a form field. -/
def choices (c : Component) : Except Fault (List Choice) :=
  (membersOf ((c.props.get? "options").getD .null)).map (·.map Choice.ofValue)

/-- Whether a property of a component is there and counts as true. -/
def isOn (c : Component) (name : String) : Bool :=
  ((c.props.get? name).map Value.isTruthy).getD false

/-- The attributes without values that a component's properties turn on. -/
def flags (c : Component) (names : List String) : List Attribute :=
  (names.filter (isOn c)).map (·, none)

/-- An input that is no component. -/
def inputText (attributes : List Attribute) : Text := "<input " ++ attributesText attributes ++ " />"

/-- A text area. -/
def textareaText (c : Component) : Text :=
  let attributes := [propertyAttr c "name" "textarea", propertyAttr c "placeholder" "",
    attr "rows" (plainOr "4" (c.props.get? "rows"))] ++ flags c ["required"]
  element c "textarea" attributes (Text.escapeAttribute (plainOr "" (c.props.get? "value")))

/-- A list to select from. -/
def selectText (c : Component) : Except Fault Text := do
  let options := (← choices c).map fun o =>
    "<option " ++ attributesText [attr "value" o.value] ++ ">" ++ o.label ++ "</option>"
  pure (block c "select" [] (propertyAttr c "name" "select" :: flags c ["required"])
    (Text.unlines options))

/-- A box to check. -/
def checkboxText (c : Component) : Text :=
  let attributes := [attr "type" "checkbox", propertyAttr c "name" "checkbox"] ++
    flags c ["required", "checked"]
  block c "label" [] [] (Text.unlines [
    inputText attributes,
    wrap "<span>" (plainOr "Checkbox" (c.props.get? "label")) "span"])

/-- One button of a radio group. -/
def radioText (c : Component) (required : List Attribute) (o : Choice) : Text :=
  let attributes := [attr "type" "radio", propertyAttr c "name" "radio-group",
    attr "value" o.value] ++ required
  Text.unlines [
    "<label class=\"radio-option\">",
    inputText attributes,
    wrap "<span>" o.label "span",
    "</label>"]

/-- The buttons of a radio group; the first one carries the flag that a choice is required. -/
def radioTexts (c : Component) : List Choice → List Text
  | [] => []
  | first :: rest => radioText c (flags c ["required"]) first :: rest.map (radioText c [])

/-- A radio group. -/
def radioGroupText (c : Component) : Except Fault Text := do
  let buttons := radioTexts c (← choices c)
  pure (if buttons.isEmpty then element c "div" [] []
    else block c "div" [] [] (Text.unlines buttons))

/-- The label of a form field. -/
def labelText (c : Component) : Text :=
  let target :=
    if isOn c "for" then [attr "for" (plainOr "" (c.props.get? "for"))] else []
  let marker : Text :=
    if isOn c "required" then "<span class=\"required-marker\">*</span>" else []
  element c "label" target (plainOr "Label" (c.props.get? "text") ++ marker)

/-! ## All kinds -/

/-- A component around the markup of its children. -/
def wrapper (c : Component) (tag : String) (classes : List String) (attributes : List Attribute)
    (start : Text) (children : Except Fault Text) : Except Fault Text :=
  children.map fun inner => block c tag classes attributes (joinPresent "\n" [start, inner])

/-- The markup of a component of a kind; `children` is the markup of its children, which only some
kinds hold. -/
def render (w : Widget) (c : Component) (children : Except Fault Text) : Except Fault Text :=
  match w with
  | .container => wrapper c "div" [] [] [] children
  | .region => wrapper c "section" [] [] [] children
  | .grid => wrapper c "div" ["grid"] [] [] children
  | .flex => wrapper c "div" ["flex"] [] [] children
  | .spacer => .ok (startTag c "div" ["spacer"] [] ++ endTag "div")
  | .heading => .ok (element c (headingTag c) [] (textContent c "Heading"))
  | .text => .ok (element c "p" [] (textContent c "Text content"))
  | .button =>
      .ok (element c "button" [attr "type" (attributeOr c "type" "button")]
        (textContent c "Button"))
  | .link =>
      .ok (element c "a"
        [attr "href" (attributeOr c "href" "#"), attr "target" (attributeOr c "target" "_self")]
        (textContent c "Link"))
  | .image =>
      .ok (voidTag c "img"
        [attr "src" (attributeOr c "src" "https://via.placeholder.com/600x400"),
          attr "alt" (attributeOr c "alt" "Image")])
  | .hero => wrapper c "section" ["hero"] [] (heroText c) children
  | .features => featuresText c
  | .callToAction => .ok (callToActionText c)
  | .footer => footerText c
  | .navigation => navigationText c
  | .form =>
      wrapper c "form" [] [propertyAttr c "method" "POST", propertyAttr c "action" "#"] [] children
  | .input =>
      .ok (voidTag c "input" ([propertyAttr c "type" "text", propertyAttr c "name" "input",
        propertyAttr c "placeholder" "", propertyAttr c "value" ""] ++ flags c ["required"]))
  | .textarea => .ok (textareaText c)
  | .select => selectText c
  | .checkbox => .ok (checkboxText c)
  | .radio => radioGroupText c
  | .label => .ok (labelText c)
  | .formGroup => wrapper c "div" ["form-group"] [] [] children
  | .submitButton =>
      .ok (element c "button" (attr "type" "submit" :: flags c ["disabled"])
        (plainOr "Submit" (c.props.get? "text")))

end StaticSite.Widget
