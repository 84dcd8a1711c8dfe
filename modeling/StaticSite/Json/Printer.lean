import StaticSite.Value.Basic

/-! # Writing JSON

JSON in ASCII: other characters are written as escapes, beyond the basic plane as surrogate pairs.
`compact` writes one line and `pretty` one member per line.
-/

namespace StaticSite.Json

/-- Writes a unit of sixteen bits as an escape. -/
def unitEscape (n : Nat) : Text := '\\' :: 'u' :: Text.hexOfWidth 4 n

/-- Writes one character of a string. -/
def encodeChar (c : Char) : Text :=
  match c with
  | '"' => "\\\""
  | '\\' => "\\\\"
  | '\n' => "\\n"
  | '\r' => "\\r"
  | '\t' => "\\t"
  | c =>
      let n := c.toNat
      if n = 8 then "\\b"
      else if n = 12 then "\\f"
      else if 32 ≤ n ∧ n < 127 then [c]
      else if n < 0x10000 then unitEscape n
      else unitEscape (0xd800 + (n - 0x10000) / 0x400) ++ unitEscape (0xdc00 + (n - 0x10000) % 0x400)

/-- Writes a string. -/
def encode (t : Text) : Text := '"' :: t.flatMap encodeChar ++ ['"']

/-- Writes a float. -/
def floatText (x : Float) : Text :=
  match Binary.ofFloat x with
  | .nan => "NaN"
  | .infinite negative => if negative then "-Infinity" else "Infinity"
  | .finite .. => Number.ofFloat x

/-- Writes a value without members. -/
def scalarText : Value → Text
  | .null => "null"
  | .bool b => if b then "true" else "false"
  | .int n => Text.ofInt n
  | .float x => floatText x
  | .text s => encode s
  | .moment m => encode m.text
  | .list _ => "[]"
  | .table _ => ['\x7b', '\x7d']

mutual

/-- Writes a value on one line. -/
def compact : Value → Text
  | .list items => '[' :: Text.joinWith ", " (compactItems items) ++ [']']
  | .table fields => '\x7b' :: Text.joinWith ", " (compactFields fields) ++ ['\x7d']
  | v => scalarText v

/-- Writes the members of a list, each on its own. -/
def compactItems : List Value → List Text
  | [] => []
  | v :: rest => compact v :: compactItems rest

/-- Writes the fields of a table, each on its own. -/
def compactFields : List (String × Value) → List Text
  | [] => []
  | (key, v) :: rest => (encode key ++ ": " ++ compact v) :: compactFields rest

end

/-- A new line at a depth of indentation. -/
def newLine (unit : Text) (depth : Nat) : Text := '\n' :: (List.replicate depth unit).flatten

/-- Puts brackets around members that stand on lines of their own. -/
def bracket (unit : Text) (depth : Nat) (left right : Char) (members : List Text) : Text :=
  if members.isEmpty then [left, right]
  else
    left :: newLine unit (depth + 1) ++ Text.joinWith (',' :: newLine unit (depth + 1)) members ++
      newLine unit depth ++ [right]

mutual

/-- Writes a value with one member per line, indented by a unit for each level. -/
def pretty (unit : Text) (depth : Nat) : Value → Text
  | .list items => bracket unit depth '[' ']' (prettyItems unit (depth + 1) items)
  | .table fields => bracket unit depth '\x7b' '\x7d' (prettyFields unit (depth + 1) fields)
  | v => scalarText v

/-- Writes the members of a list, each on its own. -/
def prettyItems (unit : Text) (depth : Nat) : List Value → List Text
  | [] => []
  | v :: rest => pretty unit depth v :: prettyItems unit depth rest

/-- Writes the fields of a table, each on its own. -/
def prettyFields (unit : Text) (depth : Nat) : List (String × Value) → List Text
  | [] => []
  | (key, v) :: rest =>
      (encode key ++ ": " ++ pretty unit depth v) :: prettyFields unit depth rest

end

end StaticSite.Json
