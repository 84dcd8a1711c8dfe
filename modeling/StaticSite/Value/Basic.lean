import StaticSite.Number.Notation
import StaticSite.Text.Quoted
import StaticSite.Value.Fields
import StaticSite.Value.Moment

/-! # Values

Raw data as trees, settings and stores hold it: what a data file can say. A table keeps the order
of its keys. A value has a plain form, which goes into generated text, and a quoted form, which
lists and tables use for their members.
-/

namespace StaticSite

/-- Raw data. -/
inductive Value
  | null
  | bool (b : Bool)
  | int (n : Int)
  | float (x : Float)
  | text (s : String)
  | list (items : List Value)
  | table (fields : List (String × Value))
  | moment (m : Moment)
  deriving Inhabited, Repr

/-- The fields of a table in order. -/
abbrev Fields := List (String × Value)

namespace Fields

/-- The value of a key. -/
def get? (fields : Fields) (key : String) : Option Value := fields.lookup key

/-- Whether a key is present. -/
def has (fields : Fields) (key : String) : Bool := fields.any (·.1 == key)

end Fields

namespace Value

/-- The name of the type of a value. -/
def typeName : Value → String
  | .null => "NoneType"
  | .bool _ => "bool"
  | .int _ => "int"
  | .float _ => "float"
  | .text _ => "str"
  | .list _ => "list"
  | .table _ => "dict"
  | .moment m => m.typeName

/-- The name of the type of a value without the module it belongs to. -/
def shortTypeName : Value → String
  | .moment m => m.shortTypeName
  | v => v.typeName

/-- Whether a value counts as present: null, false, zero and what is empty do not. -/
def isTruthy : Value → Bool
  | .null => false
  | .bool b => b
  | .int n => n != 0
  | .float x => x != 0.0
  | .text s => !s.isEmpty
  | .list items => !items.isEmpty
  | .table fields => !fields.isEmpty
  | .moment _ => true

mutual

/-- The form of a value inside lists, tables and messages. -/
def quoted : Value → Text
  | .null => "None"
  | .bool b => if b then "True" else "False"
  | .int n => Text.ofInt n
  | .float x => Number.ofFloat x
  | .text s => Text.quoted s
  | .list items => "[" ++ Text.joinWith ", " (quotedItems items) ++ "]"
  | .table fields => '\x7b' :: Text.joinWith ", " (quotedFields fields) ++ ['\x7d']
  | .moment m => m.quoted

/-- The quoted members of a list. -/
def quotedItems : List Value → List Text
  | [] => []
  | v :: rest => quoted v :: quotedItems rest

/-- The quoted fields of a table. -/
def quotedFields : List (String × Value) → List Text
  | [] => []
  | (key, v) :: rest => (Text.quoted key ++ ": " ++ quoted v) :: quotedFields rest

end

/-- The plain form of a value: a text stands for itself. -/
def plain : Value → Text
  | .text s => s
  | .moment m => m.text
  | v => v.quoted

/-- The form of a value in style text: numbers without a needless point, booleans in lower case. -/
def styleText : Value → Text
  | .bool b => if b then "true" else "false"
  | .float x => Number.plainFloat x
  | v => v.plain

/-- The members that iteration gives: the members of a list, the keys of a table, the characters of
a text. -/
def members? : Value → Option (List Value)
  | .list items => some items
  | .table fields => some (fields.map fun (key, _) => .text key)
  | .text s => some (s.toList.map fun c => .text (String.ofList [c]))
  | _ => none

/-- The fields of a table, none for any other value. -/
def fields? : Value → Option Fields
  | .table fields => some fields
  | _ => none

end Value

end StaticSite
