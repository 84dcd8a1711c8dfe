import StaticSite.Theme.Preset

/-! # The active theme

A store holds the tokens of the theme that is in use. It switches between the presets and takes
overrides, and it gives the custom properties that a page's stylesheet declares for the tokens.
-/

namespace StaticSite.Theme

/-- The theme in use. -/
structure Store where
  name : String
  tokens : Tokens

namespace Store

/-- The name of a theme that has been overridden. -/
def customName : String := "custom"

/-- A store with a preset. -/
def ofPreset (p : Preset) : Store := ⟨p.label, p.tokens⟩

/-- The store that one begins with. -/
def initial : Store := ofPreset .default

/-- A store with the preset of a name. -/
def ofName (name : String) : Except Fault Store :=
  match Preset.ofLabel? name with
  | some p => .ok (ofPreset p)
  | none => .error (.unknownTheme name)

/-- Merges overrides into the theme in use, group by group in the order of the groups. The theme is
a custom one from then on. -/
def update (store : Store) (groups : Fields) : Except Fault Store :=
  match groups.find? fun (name, _) => (Group.ofLabel? name).isNone with
  | some (name, _) => .error (.unexpectedGroup name)
  | none => do
      let ordered := Group.all.filterMap fun g => (Fields.get? groups g.label).map (g.label, ·)
      pure ⟨customName, ← store.tokens.merge ordered⟩

/-- The token at a path, which is the name of a group, a point and a key; an empty text if there is
none. -/
def value (store : Store) (path : Text) : Value :=
  let (group, key) := Text.splitFirst '.' path
  let found := (Group.ofLabel? (String.ofList group)).bind fun g =>
    (store.tokens g).lookup (.ofText (String.ofList key))
  found.getD (.text "")

/-- The text of a token in style text: only numbers take the form of style values. -/
def tokenText : Value → Text
  | .int n => (Value.int n).styleText
  | .float x => (Value.float x).styleText
  | v => v.plain

/-- The custom properties of typography with the tokens that they stand for. -/
def typographyNames : List (String × String) := [
  ("--font-family", "fontFamily"),
  ("--font-family-heading", "fontFamilyHeading"),
  ("--font-size-base", "baseFontSize"),
  ("--line-height", "lineHeight"),
  ("--line-height-heading", "headingLineHeight"),
  ("--font-weight-normal", "fontWeightNormal"),
  ("--font-weight-medium", "fontWeightMedium"),
  ("--font-weight-bold", "fontWeightBold")]

/-- A token as a custom property: its name behind a start of its group's. -/
def property (start : String) (field : String × Value) : String × Value :=
  (start ++ field.1, field.2)

/-- A token as a custom property whose value is written as text. -/
def textProperty (start : String) (field : String × Value) : String × Value :=
  (start ++ field.1, .text (String.ofList (tokenText field.2)))

/-- The custom properties of the tokens of one group. -/
def groupProperties (tokens : Tokens) : Group → Fields
  | .colors => (tokens .colors : Fields).map (property "--color-")
  | .typography => typographyNames.filterMap fun (name, key) =>
      ((tokens .typography).lookup (.ofText key)).map fun v =>
        (name, .text (String.ofList (tokenText v)))
  | .spacing =>
      let sizes : Entries := (tokens .spacing).filter (·.1 != .ofText "unit")
      (sizes : Fields).map (textProperty "--spacing-")
  | .borderRadius => (tokens .borderRadius : Fields).map (property "--radius-")
  | .shadows => (tokens .shadows : Fields).map (property "--shadow-")

/-- The custom properties of a theme; one that is set twice keeps its place. -/
def properties (store : Store) : Fields :=
  Fields.putAll [] (Group.all.flatMap (groupProperties store.tokens))

/-- The custom properties of a theme with the texts that a stylesheet declares for them. -/
def propertyTexts (store : Store) : List (String × String) :=
  store.properties.map fun (name, v) => (name, String.ofList v.plain)

end Store

end StaticSite.Theme
