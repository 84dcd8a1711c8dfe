import StaticSite.Value.Basic

/-! # Keys of tokens

Tokens are set by keys. A key is mostly a text, but it can be any value without members. Equal
numbers are one key, whatever their types, and a boolean is the number that it counts as; a text is
one key with no other value, although another one may be written like it. A key stays as it was
written first.
-/

namespace StaticSite.Theme

/-- What values have in common that are one key. -/
inductive Identity
  | null
  | whole (n : Int)
  | fraction (x : Binary)
  | text (s : String)
  | moment (m : Moment)
  deriving DecidableEq, Repr

/-- The identity of a value as a key; lists and tables have none. -/
def identity? : Value → Option Identity
  | .null => some .null
  | .bool b => some (.whole b.toNat)
  | .int n => some (.whole n)
  | .float x =>
      match (Binary.ofFloat x).toInt? with
      | some n => some (.whole n)
      | none => some (.fraction (Binary.ofFloat x))
  | .text s => some (.text s)
  | .moment m => some (.moment m)
  | .list _ => none
  | .table _ => none

/-- A key as it was written, with its identity. -/
structure Key where
  value : Value
  identity : Identity
  known : identity? value = some identity

namespace Key

/-- Keys of the same identity are one key. -/
instance : BEq Key := ⟨fun a b => a.identity == b.identity⟩

instance : EquivBEq Key where
  rfl {a} := beq_self_eq_true a.identity
  symm {a b} same := BEq.symm (a := a.identity) (b := b.identity) same
  trans {a b c} same alike :=
    BEq.trans (a := a.identity) (b := b.identity) (c := c.identity) same alike

/-- A text as a key. -/
def ofText (s : String) : Key := ⟨.text s, .text s, rfl⟩

instance : Coe String Key := ⟨ofText⟩

/-- A value as a key, if it can be one. -/
def ofValue? (v : Value) : Option Key :=
  match known : identity? v with
  | some identity => some ⟨v, identity, known⟩
  | none => none

/-- The text that a key is written as. -/
def name (k : Key) : String := String.ofList k.value.plain

@[simp] theorem name_ofText (s : String) : (ofText s).name = s := String.ofList_toList

theorem ofValue?_value (k : Key) : ofValue? k.value = some k := by
  obtain ⟨v, identity, known⟩ := k
  unfold ofValue?
  split
  · next other found =>
    obtain rfl : identity = other := Option.some.inj (known.symm.trans found)
    rfl
  · next none => cases known.symm.trans none

theorem ofValue?_eq_some_iff {v : Value} {k : Key} : ofValue? v = some k ↔ k.value = v := by
  constructor
  · intro found
    unfold ofValue? at found
    split at found
    · exact congrArg Key.value (Option.some.inj found).symm
    · cases found
  · rintro rfl
    exact ofValue?_value k

end Key

/-- The entries of a group, in the order in which their keys were first set. -/
abbrev Entries := List (Key × Value)

/-- Entries as fields, under the texts that their keys are written as. -/
def Entries.named (entries : Entries) : Fields := entries.map fun (k, v) => (k.name, v)

instance : Coe Entries Fields := ⟨Entries.named⟩

end StaticSite.Theme
