import StaticSite.Site.Animation
import StaticSite.Site.Options

/-! # The stylesheet of a page

The stylesheet has fixed sections: a reset, the variables of the theme, the animations, the rules
of the components in document order, the components' own code, and code for the whole page. A
section that is empty is left out.
-/

namespace StaticSite.Site

open Animation (separate)

/-- The lines of the first section. -/
def resetLines : List String := [
  "/* CSS Reset */",
  "* \x7b",
  "  margin: 0;",
  "  padding: 0;",
  "  box-sizing: border-box;",
  "\x7d",
  "",
  "body \x7b",
  "  font-family: -apple-system, BlinkMacSystemFont, 'Segoe UI', Roboto, 'Helvetica Neue', Arial, sans-serif;",
  "  line-height: 1.5;",
  "  color: #1F2937;",
  "  background: white;",
  "\x7d",
  "",
  "img \x7b",
  "  max-width: 100%;",
  "  height: auto;",
  "\x7d",
  "",
  "a \x7b",
  "  color: inherit;",
  "  text-decoration: none;",
  "\x7d",
  "",
  "button \x7b",
  "  font-family: inherit;",
  "  font-size: inherit;",
  "\x7d",
  "",
  "/* Gradient Animations */",
  "@keyframes gradient \x7b",
  "  0% \x7b background-position: 0% 50%; \x7d",
  "  50% \x7b background-position: 100% 50%; \x7d",
  "  100% \x7b background-position: 0% 50%; \x7d",
  "\x7d",
  "",
  "@keyframes float \x7b",
  "  0%, 100% \x7b transform: translateY(0) rotate(0deg); \x7d",
  "  50% \x7b transform: translateY(-20px) rotate(10deg); \x7d",
  "\x7d"]

/-- The first section. -/
def resetSection : Text := Text.unlines (resetLines.map String.toList)

/-- The custom properties of a theme. -/
def themeSection (properties : List (String × String)) : Text :=
  Text.unlines (Rule.blockLines [] ":root"
    [Text.unlines (properties.map fun (name, value) => "  " ++ name ++ ": " ++ value ++ ";")])

/-- The rules of every component of a known kind. -/
def componentRules (tree : List Component) : List Text :=
  (Tree.walk tree).filterMap fun c =>
    (Widget.ofType? c.type).bind fun w =>
      let rules := Rule.component w c
      if rules.isEmpty then none else some rules

/-- The rules of the components. -/
def componentSection (tree : List Component) : Text := separate (componentRules tree)

/-- Whether a line of a component's own code opens a rule: it has a brace and is neither blank nor
in a comment. -/
def opensRule (line : Text) : Bool :=
  let trimmed := line.trim
  !trimmed.isEmpty && !Text.startsWith "/*" trimmed && !Text.startsWith "*" trimmed &&
    line.elem '\x7b'

/-- Puts a component's selector in front of every line that opens a rule. -/
def scope (id : String) (css : Text) : Text :=
  Text.unlines ((Text.lines css).map fun line =>
    if opensRule line then Rule.selector id ++ " " ++ line else line)

/-- The code of a component's own, under a heading. -/
def customBlock (c : Component) : Option Text :=
  let css := c.props.customCode.bind (·.css)
  if isPresent css then
    some ("/* Custom CSS for #" ++ c.id ++ " */\n" ++ scope c.id (css.getD ""))
  else none

/-- The components' own code. -/
def customSection (tree : List Component) : Text :=
  let blocks := (Tree.walk tree).filterMap customBlock
  if blocks.isEmpty then [] else "/* Custom Component Styles */\n" ++ separate blocks

/-- The sections of a stylesheet, empty ones among them. -/
def styleSections (tree : List Component) (options : GenerationOptions) : List Text :=
  [resetSection,
    (match options.includeTheme, options.themeVariables with
      | true, some properties => if properties.isEmpty then [] else themeSection properties
      | _, _ => []),
    Animation.compile tree,
    componentSection tree,
    customSection tree,
    (match options.pageCode.bind (·.css) with
      | some css => if css.isEmpty then [] else "/* Global Custom CSS */\n" ++ css
      | none => [])]

/-- The stylesheet of a page. -/
def stylesheet (tree : List Component) (options : GenerationOptions) : Text :=
  separate ((styleSections tree options).filter (!·.isEmpty))

/-- The notices about components whose kind is not known. -/
def unknownStyleNotices (tree : List Component) : List Notice :=
  (Tree.walk tree).flatMap fun c =>
    match Widget.ofType? c.type with
    | some _ => []
    | none =>
        [⟨.debug, .styles, "Skipping styles for component " ++ c.id ++ " of unknown type " ++
          Text.quoted c.type⟩]

/-- The notices of a stylesheet. -/
def stylesheetNotices (tree : List Component) : List Notice :=
  Animation.notices tree ++ unknownStyleNotices tree

end StaticSite.Site
