import StaticSite.Value.Basic

/-! # Checked data

Raw data becomes typed data by checks that report every issue they find, not only the first one.
An issue says what is wrong and where: the keys and indexes that lead to the place.
-/

namespace StaticSite

/-- A step on the way to a place in raw data. -/
inductive Step
  | index (n : Nat)
  | key (name : String)
  deriving DecidableEq, Repr

/-- What can be wrong at a place. -/
inductive IssueKind
  | missing
  | stringType
  | listType
  | tableType
  | modelType
  | boolParsing
  | boolType
  | floatParsing
  | floatType
  | intParsing
  | intType
  | literal
  deriving DecidableEq, Repr

/-- The name of a kind of issue. -/
def IssueKind.label : IssueKind → String
  | .missing => "missing"
  | .stringType => "string_type"
  | .listType => "list_type"
  | .tableType => "dict_type"
  | .modelType => "model_type"
  | .boolParsing => "bool_parsing"
  | .boolType => "bool_type"
  | .floatParsing => "float_parsing"
  | .floatType => "float_type"
  | .intParsing => "int_parsing"
  | .intType => "int_type"
  | .literal => "literal_error"

/-- Something wrong at a place. -/
structure Issue where
  kind : IssueKind
  location : List Step
  deriving DecidableEq, Repr

/-- The result of a check: typed data or all the issues found. -/
inductive Checked (α : Type)
  | valid (value : α)
  | invalid (issues : List Issue)

namespace Checked

/-- Applies a function to what a check gives. -/
def map {α β : Type} (f : α → β) : Checked α → Checked β
  | valid a => valid (f a)
  | invalid issues => invalid issues

/-- Joins two checks; the issues of both count. -/
def ap {α β : Type} : Checked (α → β) → Checked α → Checked β
  | valid f, valid a => valid (f a)
  | valid _, invalid issues => invalid issues
  | invalid issues, valid _ => invalid issues
  | invalid issues, invalid more => invalid (issues ++ more)

/-- Puts a step in front of the locations of all issues. -/
def under {α : Type} (step : Step) : Checked α → Checked α
  | valid a => valid a
  | invalid issues => invalid (issues.map fun i => { i with location := step :: i.location })

/-- An issue at the place itself. -/
def issue {α : Type} (kind : IssueKind) : Checked α := invalid [⟨kind, []⟩]

/-- Checks the members of a list from an index on. -/
def eachFrom {α : Type} (check : Value → Checked α) (n : Nat) : List Value → Checked (List α)
  | [] => valid []
  | v :: rest =>
      ((valid List.cons).ap ((check v).under (.index n))).ap (eachFrom check (n + 1) rest)

/-- Checks a list. -/
def list {α : Type} (check : Value → Checked α) : Value → Checked (List α)
  | .list items => eachFrom check 0 items
  | _ => issue .listType

/-- Checks the values of fields. -/
def eachField {α : Type} (check : Value → Checked α) : Fields → Checked (List (String × α))
  | [] => valid []
  | (key, v) :: rest =>
      ((valid fun a others => (key, a) :: others).ap ((check v).under (.key key))).ap
        (eachField check rest)

/-- Checks a table. -/
def table {α : Type} (check : Value → Checked α) : Value → Checked (List (String × α))
  | .table fields => eachField check fields
  | _ => issue .tableType

/-- Accepts null as absence. -/
def optional {α : Type} (check : Value → Checked α) : Value → Checked (Option α)
  | .null => valid none
  | v => (check v).map some

/-- Checks a table of known fields. -/
def model {α : Type} (check : Fields → Checked α) : Value → Checked α
  | .table fields => check fields
  | _ => issue .modelType

/-- A field by the first of its names that is present, with that name. -/
def lookup (names : List String) (fields : Fields) : Option (String × Value) :=
  names.findSome? fun name => (Fields.get? fields name).map (name, ·)

/-- Checks a field that has to be there. -/
def required {α : Type} (name : String) (check : Value → Checked α) (fields : Fields) :
    Checked α :=
  match Fields.get? fields name with
  | some v => (check v).under (.key name)
  | none => invalid [⟨.missing, [.key name]⟩]

/-- Checks a field that has a default. The first of its names that is present counts. -/
def field {α : Type} (names : List String) (default : α) (check : Value → Checked α)
    (fields : Fields) : Checked α :=
  match lookup names fields with
  | some (name, v) => (check v).under (.key name)
  | none => valid default

end Checked

end StaticSite
