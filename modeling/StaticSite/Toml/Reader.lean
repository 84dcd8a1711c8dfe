import StaticSite.Text.Quoted

/-! # Reading TOML

What all readers of TOML share: what can be wrong, and where. A reader takes a text from its front
and leaves the rest. A fault knows how much of the text was left, which gives its line and column.
-/

namespace StaticSite.Toml

/-- A key, which is made of one or more parts. -/
abbrev Key := List String

/-- What can be wrong with a document. -/
inductive Cause
  | statementExpected
  | newlineExpected
  | expected (pattern : Text)
  | invalidCharacter (c : Char)
  | illegalCharacter (c : Char)
  | declaredTwice (key : Key)
  | overwritten
  | tableEndExpected
  | arrayEndExpected
  | immutable (key : Key)
  | redefined (key : Key)
  | equalsExpected
  | keyExpected
  | unclosedArray
  | unclosedTable
  | duplicateKey (part : String)
  | badEscape
  | badHex
  | notScalar
  | unterminatedString
  | badMoment
  | valueExpected
  deriving DecidableEq, Repr

/-- A cause and how many characters of the document were left. -/
structure Fault where
  cause : Cause
  left : Nat
  deriving DecidableEq, Repr

/-- A key in messages: its parts in parentheses, a comma behind a single one. -/
def keyText (key : Key) : Text :=
  match key with
  | [part] => "(" ++ Text.quoted part ++ ",)"
  | parts => "(" ++ Text.joinWith ", " (parts.map fun (part : String) => Text.quoted part) ++ ")"

/-- The wording of a cause. -/
def Cause.message : Cause → Text
  | .statementExpected => "Invalid statement"
  | .newlineExpected => "Expected newline or end of document after a statement"
  | .expected pattern => "Expected " ++ Text.quoted pattern
  | .invalidCharacter c => "Found invalid character " ++ Text.quoted [c]
  | .illegalCharacter c => "Illegal character " ++ Text.quoted [c]
  | .declaredTwice key => "Cannot declare " ++ keyText key ++ " twice"
  | .overwritten => "Cannot overwrite a value"
  | .tableEndExpected => "Expected ']' at the end of a table declaration"
  | .arrayEndExpected => "Expected ']]' at the end of an array declaration"
  | .immutable key => "Cannot mutate immutable namespace " ++ keyText key
  | .redefined key => "Cannot redefine namespace " ++ keyText key
  | .equalsExpected => "Expected '=' after a key in a key/value pair"
  | .keyExpected => "Invalid initial character for a key part"
  | .unclosedArray => "Unclosed array"
  | .unclosedTable => "Unclosed inline table"
  | .duplicateKey part => "Duplicate inline table key " ++ Text.quoted part
  | .badEscape => "Unescaped '\\' in a string"
  | .badHex => "Invalid hex value"
  | .notScalar => "Escaped character is not a Unicode scalar value"
  | .unterminatedString => "Unterminated string"
  | .badMoment => "Invalid date or datetime"
  | .valueExpected => "Invalid value"

/-- The place of a fault in a document. -/
def Fault.place (fault : Fault) (document : Text) : Text :=
  if fault.left = 0 then "end of document"
  else
    let before := document.take (document.length - fault.left)
    "line " ++ Text.ofNat (before.count '\n' + 1) ++ ", column " ++
      Text.ofNat ((before.reverse.takeWhile (· != '\n')).length + 1)

/-- The wording of a fault in a document: its cause and its place. -/
def Fault.message (fault : Fault) (document : Text) : Text :=
  fault.cause.message ++ " (at " ++ fault.place document ++ ")"

/-- Takes something from the front of a text. -/
abbrev Reader := StateT Text (Except Fault)

namespace Reader

/-- Stops at the text that is left. -/
def fail {α : Type} (cause : Cause) : Reader α := fun left => .error ⟨cause, left.length⟩

/-- Drops the characters of a class. -/
def skipWhile (p : Char → Bool) : Reader Unit := fun left => .ok ((), left.dropWhile p)

/-- Drops characters. -/
def skip (n : Nat) : Reader Unit := fun left => .ok ((), left.drop n)

/-- Whether the text that is left starts with another one. -/
def sees (start : Text) : Reader Bool := fun left => .ok (start.isPrefixOf left, left)

/-- The first character that is left. -/
def peek : Reader (Option Char) := fun left => .ok (left.head?, left)

end Reader

/-- Space inside a line. -/
def isSpace (c : Char) : Bool := c == ' ' || c == '\t'

/-- Space and line ends. -/
def isGap (c : Char) : Bool := isSpace c || c == '\n'

/-- Control characters, which neither comments nor texts of one line may hold; a tab is none. -/
def isControl (c : Char) : Bool := (c.toNat < 32 && c != '\t') || c.toNat == 127

/-- Drops space inside a line. -/
def skipSpace : Reader Unit := Reader.skipWhile isSpace

/-- Takes the text before a pattern, which has to hold no refused character, and the pattern. -/
def takeUntil (pattern : Text) (refused : Char → Bool) : Reader Text := fun left =>
  match Text.cut? pattern left with
  | none => .error ⟨.expected pattern, 0⟩
  | some (before, after) =>
      match before.dropWhile (fun c => !refused c) with
      | [] => .ok (before, after)
      | c :: rest => .error ⟨.invalidCharacter c, rest.length + 1 + pattern.length + after.length⟩

/-- Drops a comment, which ends with its line. -/
def skipComment : Reader Unit := fun left =>
  match left with
  | '#' :: rest =>
      let comment := rest.takeWhile (· != '\n')
      let after := rest.dropWhile (· != '\n')
      match comment.dropWhile (fun c => !isControl c) with
      | [] => .ok ((), after)
      | c :: more => .error ⟨.invalidCharacter c, more.length + 1 + after.length⟩
  | _ => .ok ((), left)

/-- Drops space, line ends and comments, at most a given number of times. -/
def skipGaps : Nat → Reader Unit
  | 0 => pure ()
  | n + 1 => do
      Reader.skipWhile isGap
      if ← Reader.sees ['#'] then
        skipComment
        skipGaps n

/-- Drops all space, line ends and comments. -/
def skipGap : Reader Unit := fun left => skipGaps left.length left

end StaticSite.Toml
