import StaticSite.Theme.Key

/-! # Design tokens

The named values that a theme is made of, in five groups. Overrides are merged key by key: a key
that a group has keeps its place, a new key comes last. Overrides are raw data, so merging can
fail; it then has no result at all.
-/

namespace StaticSite.Theme

/-- The groups of design tokens. -/
inductive Group
  | colors
  | typography
  | spacing
  | borderRadius
  | shadows
  deriving DecidableEq, Repr

namespace Group

/-- All groups in order. -/
def all : List Group := [.colors, .typography, .spacing, .borderRadius, .shadows]

/-- The name of a group. -/
def label : Group → String
  | .colors => "colors"
  | .typography => "typography"
  | .spacing => "spacing"
  | .borderRadius => "border_radius"
  | .shadows => "shadows"

/-- The group with a name. -/
def ofLabel? (label : String) : Option Group := all.find? (·.label == label)

theorem mem_all (g : Group) : g ∈ all := by cases g <;> decide

end Group

/-- The tokens of a theme, group by group. -/
abbrev Tokens := Group → Entries

/-- What can be wrong with a request to a theme. -/
inductive Fault
  /-- A theme that there is none of. -/
  | unknownTheme (name : String)
  /-- A group of overrides that there is none of. -/
  | unknownGroup (name : String)
  /-- A group of overrides that an update does not take. -/
  | unexpectedGroup (name : String)
  /-- Overrides that are neither a table nor made of members. -/
  | notIterable (typeName : String)
  /-- A member of overrides that has no members itself. -/
  | notSequence (index : Nat)
  /-- A member of overrides that is no pair. -/
  | notPair (index length : Nat)
  /-- A key that cannot be one. -/
  | badKey (typeName : String)
  deriving DecidableEq, Repr

/-- The pairs that members of overrides spell out, from an index on. -/
def pairsFrom (index : Nat) : List Value → Except Fault Entries
  | [] => .ok []
  | v :: rest =>
      match v.members? with
      | none => .error (.notSequence index)
      | some [key, value] =>
          match Key.ofValue? key with
          | none => .error (.badKey key.typeName)
          | some k => do pure ((k, value) :: (← pairsFrom (index + 1) rest))
      | some members => .error (.notPair index members.length)

/-- The pairs that overrides spell out: the fields of a table, or members that are pairs. -/
def overrides : Value → Except Fault Entries
  | .table fields => .ok (fields.map fun (name, value) => (.ofText name, value))
  | v =>
      match v.members? with
      | some members => pairsFrom 0 members
      | none => .error (.notIterable v.typeName)

namespace Tokens

/-- Overrides the tokens of a group, key by key. -/
def override (tokens : Tokens) (group : Group) (entries : Entries) : Tokens := fun g =>
  if g = group then Fields.putAll (tokens g) entries else tokens g

/-- Merges the overrides of one group; empty ones count as none. -/
def mergeGroup (tokens : Tokens) (group : Group) (v : Value) : Except Fault Tokens :=
  if v.isTruthy then (overrides v).map (tokens.override group) else .ok tokens

/-- Merges overrides group by group, in the order given. -/
def merge (tokens : Tokens) : Fields → Except Fault Tokens
  | [] => .ok tokens
  | (name, v) :: rest =>
      match Group.ofLabel? name with
      | none => .error (.unknownGroup name)
      | some group => do merge (← tokens.mergeGroup group v) rest

@[simp] theorem override_same (tokens : Tokens) (group : Group) (entries : Entries) :
    tokens.override group entries group = Fields.putAll (tokens group) entries := by
  simp [override]

theorem override_of_ne (tokens : Tokens) {group g : Group} (entries : Entries)
    (other : g ≠ group) : tokens.override group entries g = tokens g := by
  simp [override, other]

end Tokens

end StaticSite.Theme
