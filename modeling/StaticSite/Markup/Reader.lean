import StaticSite.Markup.Node

/-! # Reading markup

Tokens become a tree. Every element that is not self-closing needs its end tag, and an end tag has
to match the innermost open element. A self-closing element is complete at once, and so is every
element whose tag ends with a slash. An end tag may still follow a self-closing element that has been
written without a slash, and each such element allows for one.
-/

namespace StaticSite.Markup

/-- An element that is still open, with the nodes before it in its parent, last one first. -/
structure Frame where
  name : Text
  attributes : Attributes
  before : List Node

/-- What has been read: the frames that are open, innermost first; the nodes of the innermost one,
last one first; the text since the last of them; and the names of the self-closing elements without
a slash for which no end tag has come yet. -/
structure Progress where
  frames : List Frame
  nodes : List Node
  pending : Text
  settled : List Text

namespace Progress

/-- Nothing read. -/
def start : Progress := ⟨[], [], [], []⟩

/-- Whether white space counts here. -/
def isVerbatim (p : Progress) : Bool := p.frames.any fun frame => verbatimElements.elem frame.name

/-- A text as it counts here: where white space does not count, a text of nothing else is one
newline or one space. -/
def textHere (p : Progress) (t : Text) : Text :=
  if !p.isVerbatim && t.all isMarkupBlank then (if t.elem '\n' then ['\n'] else [' ']) else t

/-- Makes the text since the last node a node. -/
def flush (p : Progress) : Progress :=
  if p.pending.isEmpty then p
  else { p with nodes := .text (p.textHere p.pending) :: p.nodes, pending := [] }

/-- Adds a node that has no children. -/
def add (p : Progress) (node : Text → Node) (content : Text) : Progress :=
  let flushed := p.flush
  { flushed with nodes := node (flushed.textHere content) :: flushed.nodes }

/-- Opens an element. -/
def openElement (p : Progress) (name : Text) (attributes : Attributes) : Progress :=
  let flushed := p.flush
  { flushed with frames := ⟨name, attributes, flushed.nodes⟩ :: flushed.frames, nodes := [] }

/-- Closes the innermost element, which has to have the name. -/
def closeElement (p : Progress) (name : Text) : Except Fault Progress :=
  match p.flush with
  | ⟨frame :: frames, nodes, pending, settled⟩ =>
      if frame.name = name then
        .ok ⟨frames, .element frame.name frame.attributes nodes.reverse :: frame.before, pending,
          settled⟩
      else .error (.unexpectedClosing name)
  | _ => .error (.unexpectedClosing name)

/-- Reads an end tag: one for a self-closing element that is complete already does nothing. -/
def finish (p : Progress) (name : Text) : Except Fault Progress :=
  if p.settled.elem name then .ok { p with settled := p.settled.erase name }
  else p.closeElement name

/-- The node of a section in square brackets. -/
def addMarked (p : Progress) (content : Text) : Progress :=
  if Text.lower (content.take 6) = "cdata[" then p.add .data (content.drop 6)
  else p.add .declaration content

/-- Reads a token. -/
def step (p : Progress) : Token → Except Fault Progress
  | .text t => .ok { p with pending := p.pending ++ t }
  | .start name attributes closed =>
      let opened := p.openElement name attributes
      if closed then opened.closeElement name
      else if selfClosingElements.elem name then
        (opened.closeElement name).map fun q => { q with settled := name :: q.settled }
      else .ok opened
  | .finish name => p.finish name
  | .comment t => .ok (p.add .comment t)
  | .doctype t => .ok (p.add .doctype t)
  | .instruction t => .ok (p.add .instruction t)
  | .marked t => .ok (p.addMarked t)
  | .rejected reason => .error (.rejected reason)

/-- Ends reading: no element may be open, and of several open ones the outermost is at fault. -/
def complete (p : Progress) : Except Fault (List Node) :=
  match p.flush.frames.getLast? with
  | some frame => .error (.unclosed frame.name)
  | none => .ok p.flush.nodes.reverse

end Progress

/-- Reads tokens after what has been read. -/
def readFrom (p : Progress) : List Token → Except Fault (List Node)
  | [] => p.complete
  | token :: rest => do readFrom (← p.step token) rest

/-- The nodes of a markup text. -/
def read (t : Text) : Except Fault (List Node) := readFrom .start (tokens t)

end StaticSite.Markup
