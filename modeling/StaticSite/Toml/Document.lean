import StaticSite.Toml.Scalar

/-! # Documents of TOML

A document is a list of statements: a pair sets a value in the table that the last header named, and
a header opens a table or adds one to a list. Some tables are closed to later statements: those that
a header or the parts of a key have opened, and everything inside a value.
-/

namespace StaticSite.Toml

open Reader

/-! Tables in tables. -/

/-- Changes the table at a path, making the tables that lead to it. A list on the way stands for its
last member where `intoLists` says so; anything else on the way is in the way. -/
def changeAt (intoLists : Bool) (change : Fields → Except Cause Fields) :
    Key → Fields → Except Cause Fields
  | [], fields => change fields
  | part :: path, fields =>
      match Fields.get? fields part with
      | none => do
          let inner ← changeAt intoLists change path []
          pure (Fields.put part (.table inner) fields)
      | some (.table fields') => do
          let inner ← changeAt intoLists change path fields'
          pure (Fields.put part (.table inner) fields)
      | some (.list members) =>
          match intoLists, members.getLast? with
          | true, some (.table last) => do
              let inner ← changeAt intoLists change path last
              pure (Fields.put part (.list (members.dropLast ++ [.table inner])) fields)
          | _, _ => .error .overwritten
      | some _ => .error .overwritten

/-- Sets a key that is new. -/
def insert (part : String) (v : Value) (taken : Cause) (fields : Fields) : Except Cause Fields :=
  if Fields.has fields part then .error taken else .ok (Fields.put part v fields)

/-- Adds an empty table to the list at a key, which is made if there is none. -/
def appendTable (part : String) (fields : Fields) : Except Cause Fields :=
  match Fields.get? fields part with
  | none => .ok (Fields.put part (.list [.table []]) fields)
  | some (.list members) => .ok (Fields.put part (.list (members ++ [.table []])) fields)
  | some _ => .error .overwritten

/-- Turns a cause into a fault at the text that is left. -/
def settle {α : Type} : Except Cause α → Reader α
  | .ok a => pure a
  | .error cause => fail cause

/-- Whether a key lies inside one of some values. -/
def isInside (values : List Key) (key : Key) : Bool := values.any (·.isPrefixOf key)

/-- Whether a value has members. -/
def hasMembers : Value → Bool
  | .list _ | .table _ => true
  | _ => false

/-! Values. -/

mutual

/-- Takes a value. The number bounds how deep values are nested and how many there are. -/
def value : Nat → Reader Value
  | 0 => fail .valueExpected
  | n + 1 => do
      match ← text? with
      | some t => pure (.text (String.ofList t))
      | none =>
          if ← sees ['['] then
            skip 1
            skipGap
            arrayRest n []
          else if ← sees ['\x7b'] then
            skip 1
            skipSpace
            if ← sees ['\x7d'] then
              skip 1
              pure (.table [])
            else tableRest n [] []
          else plainValue

/-- Takes the rest of a list and its end; `seen` holds the members so far, last one first. -/
def arrayRest (n : Nat) (seen : List Value) : Reader Value :=
  match n with
  | 0 => fail .unclosedArray
  | n + 1 => do
      if ← sees [']'] then
        skip 1
        pure (.list seen.reverse)
      else
        let v ← value n
        skipGap
        if ← sees [']'] then
          skip 1
          pure (.list (v :: seen).reverse)
        else if ← sees [','] then
          skip 1
          skipGap
          arrayRest n (v :: seen)
        else fail .unclosedArray

/-- Takes the rest of an inline table and its end, after the fields so far; `closed` holds the keys
whose values have members. -/
def tableRest (n : Nat) (fields : Fields) (closed : List Key) : Reader Value :=
  match n with
  | 0 => fail .unclosedTable
  | n + 1 => do
      let name ← key
      if !(← sees ['=']) then fail .equalsExpected
      skip 1
      skipSpace
      let v ← value n
      if isInside closed name then fail (.immutable name)
      let part := name.getLast?.getD ""
      let after ← settle
        (changeAt false (insert part v (.duplicateKey part)) name.dropLast fields)
      skipSpace
      if ← sees ['\x7d'] then
        skip 1
        pure (.table after)
      else if ← sees [','] then
        skip 1
        skipSpace
        tableRest n after (if hasMembers v then name :: closed else closed)
      else fail .unclosedTable

end

/-- Takes a key, an equals sign and a value. -/
def pair : Reader (Key × Value) := do
  let name ← key
  if !(← sees ['=']) then fail .equalsExpected
  skip 1
  skipSpace
  let v ← fun left => value (2 * left.length + 2) left
  pure (name, v)

/-! Statements. -/

/-- A document as far as it is read: its fields, the table that pairs go to, and the keys that are
closed. A key is opened by a header, or by the parts of the keys below a header; the latter count
from the next header on. A value with members closes everything inside it. -/
structure Document where
  fields : Fields := []
  header : Key := []
  opened : List Key := []
  pending : List Key := []
  closed : List Key := []

namespace Document

/-- The document at a header: what is pending counts from here on. -/
def atHeader (d : Document) : Document := { d with opened := d.pending ++ d.opened, pending := [] }

/-- Opens the table of a header. -/
def openTable (d : Document) (name : Key) : Except Cause Document :=
  if d.opened.elem name ∨ isInside d.closed name then .error (.declaredTwice name)
  else do
    let fields ← changeAt true .ok name d.fields
    pure { d with fields, header := name, opened := name :: d.opened }

/-- Adds a table to the list of a header. What earlier members closed is open again. -/
def openMember (d : Document) (name : Key) : Except Cause Document :=
  if isInside d.closed name then .error (.immutable name)
  else do
    let fields ← changeAt true (appendTable (name.getLast?.getD "")) name.dropLast d.fields
    let outside (k : Key) : Bool := !name.isPrefixOf k
    pure { d with
      fields, header := name
      opened := name :: d.opened.filter outside
      closed := d.closed.filter outside }

/-- The keys of the tables that a key leads through, below a header. -/
def leading (header name : Key) : List Key :=
  ((List.range name.length).drop 1).map fun n => header ++ name.take n

/-- Sets the value of a key. -/
def set (d : Document) (name : Key) (v : Value) : Except Cause Document :=
  let through := leading d.header name
  let above := d.header ++ name.dropLast
  match through.find? d.opened.elem with
  | some k => .error (.redefined k)
  | none =>
      if isInside d.closed above then .error (.immutable above)
      else do
        let fields ← changeAt true (insert (name.getLast?.getD "") v .overwritten) above d.fields
        pure { d with
          fields
          pending := through ++ d.pending
          closed := if hasMembers v then (d.header ++ name) :: d.closed else d.closed }

/-- Takes a header and opens its table. -/
def tableHeader (d : Document) : Reader Document := do
  skip 1
  skipSpace
  let name ← Toml.key
  let after ← settle (d.atHeader.openTable name)
  if !(← sees [']']) then fail .tableEndExpected
  skip 1
  pure after

/-- Takes a header with two brackets and adds a table to its list. -/
def memberHeader (d : Document) : Reader Document := do
  skip 2
  skipSpace
  let name ← Toml.key
  let after ← settle (d.atHeader.openMember name)
  if !(← sees "]]") then fail .arrayEndExpected
  skip 2
  pure after

/-- Takes a pair and sets its value. -/
def pairStatement (d : Document) : Reader Document := do
  let (name, v) ← pair
  settle (d.set name v)

/-- Takes a statement, if there is one before the end of the line. -/
def statement (d : Document) : Reader Document := do
  match ← peek with
  | none | some '#' => pure d
  | some '[' => if ← sees "[[" then d.memberHeader else d.tableHeader
  | some c =>
      if isBare c || c == '"' || c == '\'' then d.pairStatement else fail .statementExpected

/-- Takes the statements of a document, at most a given number of lines. -/
def statements (d : Document) : Nat → Reader Document
  | 0 => pure d
  | n + 1 => do
      skipSpace
      if ← sees ['\n'] then
        skip 1
        d.statements n
      else
        let after ← d.statement
        skipSpace
        skipComment
        match ← peek with
        | none => pure after
        | some '\n' =>
            skip 1
            after.statements n
        | some _ => fail .newlineExpected

end Document

/-- Joins a carriage return and the newline after it. -/
def joinLineEnds : Text → Text
  | '\r' :: '\n' :: rest => '\n' :: joinLineEnds rest
  | c :: rest => c :: joinLineEnds rest
  | [] => []

/-- Reads a document. -/
def read (t : Text) : Except Fault Fields :=
  (({} : Document).statements (t.length + 1) t).map fun (d, _) => d.fields

end StaticSite.Toml
