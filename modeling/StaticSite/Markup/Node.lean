import StaticSite.Markup.Token
import StaticSite.Stylesheet.Token

/-! # Nodes of markup

The tree that a markup text stands for, the classes of elements that its readers and printers tell
apart, and what can be wrong with a text.
-/

namespace StaticSite.Markup

/-- A node of markup. -/
inductive Node
  | text (content : Text)
  | comment (content : Text)
  | doctype (content : Text)
  /-- A section of character data. -/
  | data (content : Text)
  /-- Any other section in square brackets. -/
  | declaration (content : Text)
  | instruction (content : Text)
  | element (name : Text) (attributes : Attributes) (children : List Node)
  deriving Repr

/-- Why a markup text has no layout. -/
inductive Fault
  | unexpectedClosing (name : Text)
  | unclosed (name : Text)
  /-- A section that cannot be read at all. -/
  | rejected (reason : Text)
  /-- A style element whose content is no stylesheet. -/
  | style (fault : Stylesheet.Fault)
  deriving DecidableEq, Repr

/-- The wording of a fault. -/
def Fault.message : Fault → Text
  | .unexpectedClosing name => "Unexpected closing tag </" ++ name ++ ">"
  | .unclosed name => "Unclosed <" ++ name ++ "> element"
  | .rejected reason =>
      "The markup you provided was rejected by the parser. Trying a different parser or a " ++
        "different encoding may help.\n\nOriginal exception(s) from parser:\n AssertionError: " ++
        reason
  | .style fault => fault.message

/-- The elements that end where they start. -/
def selfClosingElements : List Text := [
  "area", "base", "br", "col", "embed", "hr", "img", "input", "keygen", "link", "menuitem", "meta",
  "param", "source", "track", "wbr", "basefont", "bgsound", "command", "frame", "image", "isindex",
  "nextid", "spacer"]

/-- The elements that are written without an end tag. -/
def voidElements : List Text := [
  "area", "base", "br", "col", "embed", "hr", "img", "input", "link", "meta", "param", "source",
  "track", "wbr"]

/-- The elements that stand in a line of text. -/
def inlineElements : List Text := [
  "a", "abbr", "b", "bdi", "bdo", "br", "button", "cite", "code", "data", "dfn", "em", "i", "img",
  "input", "kbd", "label", "mark", "q", "s", "samp", "small", "span", "strong", "sub", "sup",
  "time", "u", "var", "wbr"]

/-- The elements whose white space counts. -/
def verbatimElements : List Text := ["pre", "textarea"]

/-- The elements that are written without an end tag close themselves when they are read. -/
theorem selfClosing_of_void : ∀ name ∈ voidElements, name ∈ selfClosingElements := by decide

end StaticSite.Markup
