/-! # Ordered fields

Pairs of keys and values in the order in which the keys were first set. Setting a key again keeps
its place, and keeps it as it was written first.
-/

namespace StaticSite.Fields

variable {κ α : Type}

/-- The keys in order. -/
def keys (fields : List (κ × α)) : List κ := fields.map (·.1)

variable [BEq κ]

/-- Sets a key: a key that is present keeps its place, a new one comes last. -/
def put (key : κ) (value : α) : List (κ × α) → List (κ × α)
  | [] => [(key, value)]
  | (k, v) :: rest => if k == key then (k, value) :: rest else (k, v) :: put key value rest

/-- Sets several keys in order. -/
def putAll (fields updates : List (κ × α)) : List (κ × α) :=
  updates.foldl (fun acc (key, value) => put key value acc) fields

theorem keys_put (key : κ) (value : α) (fields : List (κ × α)) :
    keys (put key value fields) =
      if (keys fields).any (· == key) then keys fields else keys fields ++ [key] := by
  induction fields with
  | nil => simp [put, keys]
  | cons field rest ih =>
    obtain ⟨k, v⟩ := field
    have listed : keys ((k, v) :: rest) = k :: keys rest := rfl
    cases same : k == key with
    | true => simp [put, same, keys]
    | false =>
      rw [put, if_neg (by simp [same]), listed, List.any_cons, same, Bool.false_or]
      refine (congrArg (k :: ·) ih).trans ?_
      split <;> rfl

/-- Setting a key that is present leaves the keys alone. -/
theorem keys_put_of_mem [ReflBEq κ] {key : κ} {value : α} {fields : List (κ × α)}
    (present : key ∈ keys fields) : keys (put key value fields) = keys fields := by
  have some : (keys fields).any (· == key) = true := List.any_eq_true.mpr ⟨key, present, BEq.rfl⟩
  rw [keys_put, if_pos some]

/-- Setting a key that is absent adds it at the end. -/
theorem keys_put_of_not_mem [LawfulBEq κ] {key : κ} {value : α} {fields : List (κ × α)}
    (absent : key ∉ keys fields) : keys (put key value fields) = keys fields ++ [key] := by
  rw [keys_put, if_neg (by simpa using absent)]

theorem lookup_put_beq [EquivBEq κ] (key other : κ) (value : α) (fields : List (κ × α)) :
    (put key value fields).lookup other =
      if other == key then some value else fields.lookup other := by
  induction fields with
  | nil =>
    rw [put, List.lookup_cons, List.lookup_nil]
    cases other == key <;> rfl
  | cons field rest ih =>
    obtain ⟨k, v⟩ := field
    cases here : k == key with
    | true =>
      have alike : (other == k) = (other == key) := BEq.congr_right here
      rw [put, if_pos here, List.lookup_cons, List.lookup_cons, alike]
      cases other == key <;> rfl
    | false =>
      rw [put, if_neg (by simp [here]), List.lookup_cons, List.lookup_cons, ih]
      cases found : other == k with
      | false => rfl
      | true => rw [BEq.congr_left found, here]; rfl

theorem lookup_put [LawfulBEq κ] [DecidableEq κ] (key other : κ) (value : α)
    (fields : List (κ × α)) : (put key value fields).lookup other =
      if other = key then some value else fields.lookup other := by
  simp [lookup_put_beq]

/-- Keys that are not set keep their values. -/
theorem lookup_putAll_of_not_mem [LawfulBEq κ] {key : κ} {updates : List (κ × α)}
    (absent : key ∉ keys updates) (fields : List (κ × α)) :
    (putAll fields updates).lookup key = fields.lookup key := by
  induction updates generalizing fields with
  | nil => rfl
  | cons update rest ih =>
    simp only [keys, List.map_cons, List.mem_cons, not_or] at absent
    refine (ih absent.2 _).trans ?_
    rw [lookup_put_beq, beq_false_of_ne absent.1]
    rfl

/-- The last update of a key decides its value. -/
theorem lookup_putAll [EquivBEq κ] (key : κ) (fields updates : List (κ × α)) :
    (putAll fields updates).lookup key = (updates.reverse.lookup key).or (fields.lookup key) := by
  induction updates generalizing fields with
  | nil => rfl
  | cons update rest ih =>
    obtain ⟨k, v⟩ := update
    refine (ih (put k v fields)).trans ?_
    rw [lookup_put_beq, List.reverse_cons, List.lookup_append, Option.or_assoc, List.lookup_cons,
      List.lookup_nil]
    cases key == k <;> rfl

end StaticSite.Fields
