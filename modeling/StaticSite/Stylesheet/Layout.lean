import StaticSite.Formatting.Style
import StaticSite.Stylesheet.Selector
import StaticSite.Stylesheet.Token
import StaticSite.Text.Lines

/-! # Layout of a stylesheet

One declaration or comment per line, blocks indented by their depth, and an empty line before each
top-level item that does not follow a comment. A selector list whose line would exceed the width
has one selector per line.
-/

namespace StaticSite.Stylesheet

/-- Whether a text starts with an at sign, as the preludes and statements of at-rules do. -/
def isAtRule (t : Text) : Bool := t.head? == some '@'

theorem isAtRule_of_head? {s t : Text} (same : s.head? = t.head?) : isAtRule s = isAtRule t := by
  rw [isAtRule, isAtRule, same]

/-- A declaration with one space after its colon and a semicolon at its end. -/
def declarationText (t : Text) : Text :=
  if isAtRule t || !t.elem ':' then t ++ [';']
  else
    let (name, value) := Text.splitFirst ':' t
    name.trim ++ ": " ++ value.trim ++ [';']

/-- The end of a line that opens a block. -/
def blockStart : Text := [' ', '\x7b']

/-- A selector list with one selector per line. -/
def selectorLines (indent : Text) : List Text → List Text
  | [] => []
  | [last] => [indent ++ last ++ blockStart]
  | selector :: rest => (indent ++ selector ++ [',']) :: selectorLines indent rest

/-- The lines that open a block. -/
def openingLines (style : Style) (depth : Nat) (start : Text) : List Text :=
  let indent := style.indent depth
  if isAtRule start then [indent ++ start ++ blockStart]
  else
    let parts := selectors start
    let single := indent ++ Text.joinWith ", " parts ++ blockStart
    if parts.length < 2 || style.fits single then [single] else selectorLines indent parts

/-- What went before at the top level. -/
inductive Above
  | nothing
  | comment
  | statement
  deriving DecidableEq, Repr

/-- The empty line before a top-level item. -/
def gap (depth : Nat) (above : Above) : List Text :=
  if depth = 0 ∧ above = .statement then [[]] else []

/-- What the next top-level item has above it after a token at a depth. -/
def aboveAfter (depth : Nat) (above : Above) (token : Token) : Above :=
  if depth = 0 then
    match token with
    | .comment _ => .comment
    | _ => .statement
  else above

/-- The lines of tokens at a depth. A fault of the tokens counts only when no brace is out of
balance before it. -/
def linesFrom (style : Style) (fault : Option Fault) (depth : Nat) (above : Above) :
    List Token → Except Fault (List Text)
  | [] =>
      match fault with
      | some f => .error f
      | none => if depth = 0 then .ok [] else .error .unclosedBlock
  | .closing :: rest =>
      match depth with
      | 0 => .error .unbalancedBrace
      | outer + 1 =>
          (linesFrom style fault outer above rest).map ((style.indent outer ++ ['\x7d']) :: ·)
  | .opening start :: rest =>
      (linesFrom style fault (depth + 1) (aboveAfter depth above (.opening start)) rest).map
        (gap depth above ++ openingLines style depth start ++ ·)
  | .declaration t :: rest =>
      (linesFrom style fault depth (aboveAfter depth above (.declaration t)) rest).map
        (gap depth above ++ [style.indent depth ++ declarationText t] ++ ·)
  | .comment t :: rest =>
      (linesFrom style fault depth (aboveAfter depth above (.comment t)) rest).map
        (gap depth above ++ [style.indent depth ++ t] ++ ·)

/-- The lines of a stylesheet. -/
def layoutLines (style : Style) (ts : Tokens) : Except Fault (List Text) :=
  linesFrom style ts.fault 0 .nothing ts.items

/-- Lays out a stylesheet. -/
def format (style : Style) (t : Text) : Except Fault Text :=
  (layoutLines style (tokens t)).map Text.page

end StaticSite.Stylesheet
