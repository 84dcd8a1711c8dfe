import StaticSite.Markup.Node
import StaticSite.Text.Escaped

/-! # Writing markup as it is

How a node is written where white space counts: nothing is moved, attributes stand in the order of
their names, and a document encoding that a `meta` element names is the one of the output.
-/

namespace StaticSite.Markup

/-- Whether one text comes before another in the order of characters. -/
def comesBefore : Text → Text → Bool
  | [], [] => false
  | [], _ :: _ => true
  | _ :: _, [] => false
  | a :: as, b :: bs => if a = b then comesBefore as bs else a.toNat < b.toNat

/-- Puts an attribute where its name belongs. -/
def insertAttribute (new : Text × Text) : Attributes → Attributes
  | [] => [new]
  | first :: rest =>
      if comesBefore first.1 new.1 then first :: insertAttribute new rest
      else new :: first :: rest

/-- Attributes in the order of their names. -/
def sortAttributes : Attributes → Attributes
  | [] => []
  | first :: rest => insertAttribute first (sortAttributes rest)

/-- The encoding of the output. -/
def outputEncoding : Text := "utf-8"

/-- Replaces the encoding after each `charset=` that stands at the start of a line, after a blank
or after a semicolon. `previous` is the character before the text. -/
def replaceCharset (previous : Option Char) (skip : Nat) : Text → Text
  | [] => []
  | c :: rest =>
      if 0 < skip then replaceCharset (some c) (skip - 1) rest
      else
        let atStart (p : Option Char) : Bool := match p with
          | none => true
          | some p => isBlank p || p == ';'
        if atStart previous && Text.startsWith "charset=" (c :: rest) then
          let encoding := (rest.drop 7).takeWhile (· != ';')
          "charset=" ++ outputEncoding ++ replaceCharset (some c) (7 + encoding.length) rest
        else c :: replaceCharset (some c) 0 rest

/-- The value of an attribute. -/
def attributeOf (attributes : Attributes) (name : Text) : Option Text := attributes.lookup name

/-- Attributes that name the encoding of the output where they name one. -/
def withOutputEncoding (name : Text) (attributes : Attributes) : Attributes :=
  if name = "meta" then
    match attributeOf attributes "charset", attributeOf attributes "content",
        attributeOf attributes "http-equiv" with
    | some _, _, _ => Fields.put "charset" outputEncoding attributes
    | none, some content, some kind =>
        if Text.lower kind = "content-type" then
          Fields.put "content" (replaceCharset none 0 content) attributes
        else attributes
    | _, _, _ => attributes
  else attributes

/-- Writes attributes, each after a space. -/
def verbatimAttributes (attributes : Attributes) : Text :=
  (sortAttributes attributes).flatMap fun (name, value) =>
    ' ' :: name ++ "=" ++ Text.quotedAttribute value

mutual

/-- Writes a node; `raw` when the element around it has raw content. -/
def verbatim (raw : Bool) : Node → Text
  | .text t => if raw then t else Text.escapeContent t
  | .comment t => "<!--" ++ t ++ "-->"
  | .doctype t => "<!DOCTYPE " ++ t ++ ">\n"
  | .data t => "<![CDATA[" ++ t ++ "]]>"
  | .declaration t => "<?" ++ t ++ "?>"
  | .instruction t => "<?" ++ t ++ ">"
  | .element name attributes children =>
      let start := '<' :: name ++ verbatimAttributes (withOutputEncoding name attributes)
      if children.isEmpty && selfClosingElements.elem name then start ++ "/>"
      else
        start ++ ">" ++ verbatimAll (rawElements.elem name) children ++ "</" ++ name ++ ">"

/-- Writes nodes one after the other. -/
def verbatimAll (raw : Bool) : List Node → Text
  | [] => []
  | node :: rest => verbatim raw node ++ verbatimAll raw rest

end

/-- The content of an element with raw content. -/
def rawBody (children : List Node) : Text := verbatimAll true children

end StaticSite.Markup
