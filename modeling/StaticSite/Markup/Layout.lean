import StaticSite.Markup.Printer
import StaticSite.Markup.Reader
import StaticSite.Stylesheet.Layout

/-! # Layout of markup

One block element, comment or declaration per line, indented by its depth. Content with visible
text or with inline elements side by side stays on one line, because a line break would show.
Style content has the layout of a stylesheet, script content moves as a whole, and where white
space counts nothing moves.
-/

namespace StaticSite.Markup

/-- A text with each run of blanks as one space. -/
def collapse (t : Text) : Text := Text.squeeze isMarkupBlank t

namespace Node

/-- Whether a node is text that does not show. -/
def isBlank : Node → Bool
  | .text t => t.all isMarkupBlank
  | _ => false

/-- Whether a node is text that shows. -/
def isVisibleText : Node → Bool
  | .text t => !t.all isMarkupBlank
  | _ => false

/-- Whether a node is an element that stands in a line of text. -/
def isInline : Node → Bool
  | .element name _ _ => inlineElements.elem name
  | _ => false

end Node

/-- Whether two neighbours of a list both pass a test. -/
def anyNeighbours (test : Node → Bool) : List Node → Bool
  | a :: b :: rest => test a && test b || anyNeighbours test (b :: rest)
  | _ => false

/-- Whether line breaks between nodes would show. -/
def showsBreaks (nodes : List Node) : Bool :=
  nodes.any Node.isVisibleText || anyNeighbours Node.isInline nodes

/-- Whether the content of an element stays on one line. -/
def keepsInline (name : Text) (children : List Node) : Bool :=
  inlineElements.elem name || showsBreaks children

/-- Writes an attribute: without a value when that is empty. -/
def attributeText (name value : Text) : Text :=
  if value.isEmpty then name else name ++ "=" ++ Text.quotedAttribute value

/-- Writes attributes. -/
def attributeTexts (attributes : Attributes) : List Text :=
  attributes.map fun (name, value) => attributeText name value

/-- A comment with one space inside each delimiter. -/
def commentText (t : Text) : Text :=
  if t.trim.isEmpty then "<!---->" else "<!-- " ++ t.trim ++ " -->"

/-- A document type without the keyword and its blanks, where they are written twice. -/
def dropDoctypeKeyword (t : Text) : Text :=
  if Text.lower (t.take 7) = "doctype" && ((t.drop 7).head?.map isBlank).getD false then
    (t.drop 7).dropWhile isBlank
  else t

/-- A document type with its blanks collapsed. -/
def doctypeText (t : Text) : Text :=
  "<!DOCTYPE " ++ dropDoctypeKeyword (collapse t).trim ++ ">"

/-- Writes a start tag on one line. -/
def startTag (name : Text) (attributes : Attributes) (ending : Text) : Text :=
  '<' :: name ++ (attributeTexts attributes).flatMap (' ' :: ·) ++ ending

/-- Writes an end tag. -/
def endTag (name : Text) : Text := "</" ++ name ++ ">"

mutual

/-- Writes a node on one line, collapsing blanks and never adding one. -/
def inline : Node → Text
  | .text t => Text.escapeContent (collapse t)
  | .comment t => commentText t
  | .doctype t => doctypeText t
  | .element name attributes children =>
      if voidElements.elem name then startTag name attributes " />"
      else
        let body :=
          if verbatimElements.elem name then verbatimAll false children
          else if rawElements.elem name then rawBody children
          else inlineAll children
        startTag name attributes ">" ++ body ++ endTag name
  | node => verbatim false node

/-- Writes nodes on one line. -/
def inlineAll : List Node → Text
  | [] => []
  | node :: rest => inline node ++ inlineAll rest

end

/-- The lines of a start tag: one attribute per line when a single line is too long. -/
def startLines (style : Style) (depth : Nat) (name : Text) (attributes : Attributes)
    (ending : Text) : List Text :=
  let indent := style.indent depth
  let single := indent ++ startTag name attributes ending
  if attributes.isEmpty || style.fits single then [single]
  else
    (indent ++ '<' :: name) ::
      (attributeTexts attributes).map (style.indent (depth + 1) ++ ·) ++ [indent ++ ending.trim]

/-- Writes a text at the end of the last line. -/
def appendToLast (t : Text) : List Text → List Text
  | [] => [t]
  | [last] => [last ++ t]
  | line :: rest => line :: appendToLast t rest

/-- The lines of a text moved as a whole to an indentation: without blank lines at the ends and
without blanks at the ends of lines. -/
def movedLines (indent body : Text) : List Text :=
  let trimmed := Text.trimLines ((Text.lines body).map (Text.trimRight isBlank))
  (Text.dedent (if trimmed.isEmpty then [[]] else trimmed)).map fun line =>
    if line.isEmpty then [] else indent ++ line

/-- Whether a script holds a template literal, whose lines are part of its value. -/
def holdsTemplate (name body : Text) : Bool := name == "script".toList && body.elem '\x60'

/-- The lines of the content of an element with raw content. -/
def rawLines (style : Style) (depth : Nat) (name body : Text) : Except Fault (List Text) :=
  if holdsTemplate name body then .ok (Text.trimLines (Text.lines body))
  else if name = "style" then
    match Stylesheet.format style body with
    | .ok formatted => .ok (movedLines (style.indent (depth + 1)) formatted)
    | .error fault => .error (.style fault)
  else .ok (movedLines (style.indent (depth + 1)) body)

mutual

/-- The lines of a node at a depth. -/
def nodeLines (style : Style) (depth : Nat) : Node → Except Fault (List Text)
  | .element name attributes children =>
      if voidElements.elem name then .ok (startLines style depth name attributes " />")
      else
        let opening := startLines style depth name attributes ">"
        let closing := style.indent depth ++ endTag name
        let around (body : Text) := appendToLast (body ++ endTag name) opening
        if verbatimElements.elem name then .ok (around (verbatimAll false children))
        else if rawElements.elem name then
          let body := rawBody children
          if body.isBlank then .ok (around [])
          else (rawLines style depth name body).map (opening ++ · ++ [closing])
        else if keepsInline name children then .ok (around (inlineAll children).trimSpaces)
        else if children.all Node.isBlank then .ok (around [])
        else (allLines style (depth + 1) children).map (opening ++ · ++ [closing])
  | .text t => .ok (if t.all isMarkupBlank then [] else
      [style.indent depth ++ (inline (.text t)).trimSpaces])
  | node => .ok [style.indent depth ++ inline node]

/-- The lines of nodes at a depth. -/
def allLines (style : Style) (depth : Nat) : List Node → Except Fault (List Text)
  | [] => .ok []
  | node :: rest => do
      let first ← nodeLines style depth node
      let others ← allLines style depth rest
      pure (first ++ others)

end

/-- The lines of a markup text. -/
def layoutLines (style : Style) (nodes : List Node) : Except Fault (List Text) :=
  if showsBreaks nodes then
    let content := (inlineAll nodes).trimSpaces
    .ok (if content.isEmpty then [] else [content])
  else allLines style 0 nodes

/-- Lays out a markup text. -/
def format (style : Style) (t : Text) : Except Fault Text := do
  let nodes ← read t
  (layoutLines style nodes).map Text.page

end StaticSite.Markup
