import Mathlib.Data.List.Induction
import StaticSite.Proofs.Theme.Properties

/-! # The history of a theme

A theme is chosen by its name and changed by overrides, and either can fail. What the theme in use
is can be read off the requests alone: it is the preset that was chosen last, with everything that
was set since. The order of its tokens is the order in which their keys were first set, and a
request that fails leaves no trace.
-/

namespace StaticSite

namespace Fields

variable {κ α : Type} [BEq κ]

theorem putAll_append (fields first second : List (κ × α)) :
    putAll fields (first ++ second) = putAll (putAll fields first) second :=
  List.foldl_append

variable [EquivBEq κ]

/-- The last of several keys is left out exactly if it is one with a key before it. -/
theorem eraseDups_concat (names : List κ) (key : κ) : (names ++ [key]).eraseDups =
    if names.any (· == key) then names.eraseDups else names.eraseDups ++ [key] := by
  match names with
  | [] => simp [List.eraseDups_cons]
  | name :: rest =>
    have shorter : (rest.filter fun k => !k == name).length < rest.length + 1 :=
      Nat.lt_succ_of_le (List.length_filter_le ..)
    rw [List.cons_append, List.eraseDups_cons, List.eraseDups_cons, List.filter_append,
      List.any_cons]
    cases same : name == key with
    | true =>
      have gone : [key].filter (fun k => !k == name) = [] := by simp [BEq.symm same]
      rw [gone, List.append_nil]
      rfl
    | false =>
      have stays : [key].filter (fun k => !k == name) = [key] := by simp [BEq.comm.trans same]
      have kept : (rest.filter fun k => !k == name).any (· == key) = rest.any (· == key) := by
        rw [List.any_filter]
        refine List.any_congr rfl fun k => ?_
        cases found : k == key with
        | false => simp
        | true => simp [BEq.congr_left found, BEq.comm.trans same]
      rw [stays, eraseDups_concat (rest.filter fun k => !k == name) key, kept, Bool.false_or]
      split <;> rfl
termination_by names.length

theorem sublist_eraseDups (names : List κ) : names.eraseDups.Sublist names := by
  induction names using List.reverseRecOn with
  | nil => exact .slnil
  | append_singleton names name ih =>
    rw [eraseDups_concat]
    split
    · exact ih.trans (List.sublist_append_left ..)
    · exact ih.append (.refl _)

theorem any_eraseDups (names : List κ) (key : κ) :
    names.eraseDups.any (· == key) = names.any (· == key) := by
  induction names using List.reverseRecOn with
  | nil => rfl
  | append_singleton names name ih =>
    rw [eraseDups_concat, List.any_append]
    split
    · next before =>
      rw [ih, List.any_cons, List.any_nil, Bool.or_false]
      cases same : name == key with
      | false => rw [Bool.or_false]
      | true =>
        have alike (k : κ) : (k == name) = (k == key) := BEq.congr_right same
        simp only [alike] at before
        rw [before, Bool.or_true]
    · rw [List.any_append, ih]

/-- Among keys that appear first no two are one key. -/
theorem pairwise_eraseDups (names : List κ) :
    names.eraseDups.Pairwise fun k j => (k == j) = false := by
  induction names using List.reverseRecOn with
  | nil => exact .nil
  | append_singleton names name ih =>
    rw [eraseDups_concat]
    split
    · exact ih
    · next fresh =>
      rw [← any_eraseDups, List.any_eq_true] at fresh
      refine List.pairwise_append.mpr ⟨ih, List.pairwise_singleton _ _, fun k member j here => ?_⟩
      rw [List.mem_singleton.mp here]
      exact Bool.eq_false_iff.mpr fun same => fresh ⟨k, member, same⟩

/-- Setting keys one after the other leaves each of them where it was set first. -/
theorem keys_putAll_nil (updates : List (κ × α)) :
    keys (putAll [] updates) = (keys updates).eraseDups := by
  induction updates using List.reverseRecOn with
  | nil => rfl
  | append_singleton updates update ih =>
    obtain ⟨key, value⟩ := update
    have listed : keys (updates ++ [(key, value)]) = keys updates ++ [key] := by simp [keys]
    have last : putAll [] (updates ++ [(key, value)]) = put key value (putAll [] updates) :=
      putAll_append ..
    rw [last, listed, keys_put, ih, any_eraseDups, eraseDups_concat]

end Fields

namespace Theme

/-! ## What overrides say -/

/-- Members spell out pairs: each has two members of its own, a key and a value. -/
theorem pairsFrom_eq_ok_iff {members : List Value} {entries : Entries} {index : Nat} :
    pairsFrom index members = .ok entries ↔
      List.Forall₂ (fun v entry => v.members? = some [entry.1.value, entry.2]) members entries := by
  induction members generalizing index entries with
  | nil => simp [pairsFrom, eq_comm]
  | cons v rest ih =>
    rw [List.forall₂_cons_left_iff]
    constructor
    · intro read
      rw [pairsFrom] at read
      split at read
      · cases read
      · next key value members =>
        split at read
        · cases read
        · next k known =>
          cases others : pairsFrom (index + 1) rest with
          | error fault => rw [others] at read; cases read
          | ok more =>
            rw [others] at read
            obtain rfl := Except.ok.inj read
            rw [← Key.ofValue?_eq_some_iff.mp known] at members
            exact ⟨(k, value), more, members, ih.mp others, rfl⟩
      · cases read
    · rintro ⟨⟨k, value⟩, more, members, others, rfl⟩
      rw [pairsFrom, members]
      simp only [Key.ofValue?_value, ih.mpr others]
      rfl

/-- Overrides are read as the fields of a table, whose names are keys, or else as members that spell
out pairs: those of a list, or the characters of a text, which never do. -/
theorem overrides_eq_ok_iff {v : Value} {entries : Entries} : overrides v = .ok entries ↔
    (∃ fields, v = .table fields ∧
      entries = fields.map fun (name, value) => (.ofText name, value)) ∨
    ((∀ fields, v ≠ .table fields) ∧ ∃ members, v.members? = some members ∧
      List.Forall₂ (fun v entry => v.members? = some [entry.1.value, entry.2]) members entries) := by
  cases v with
  | table fields => simp [overrides, eq_comm]
  | list items => simp [overrides, Value.members?, pairsFrom_eq_ok_iff]
  | text s => simp [overrides, Value.members?, pairsFrom_eq_ok_iff]
  | _ => simp [overrides, Value.members?]

/-! ## Requests -/

/-- A request to the theme in use. -/
inductive Request
  /-- A preset, by its name. -/
  | choose (name : String)
  /-- Overrides, group by group. -/
  | change (groups : Fields)

namespace Request

/-- Puts the theme that was worked out in place, if there is one. -/
def place (result : Except Fault Store) : ExceptT Fault (StateM Store) Unit := do
  let store ← result
  set store

/-- What a request does to the store in use. -/
def perform : Request → ExceptT Fault (StateM Store) Unit
  | .choose name => place (Store.ofName name)
  | .change groups => do
      let store ← get
      place (store.update groups)

/-- The answer to a request, with the store that it leaves. -/
def outcome (request : Request) (store : Store) : Except Fault Unit × Store :=
  (request.perform.run store).run

/-- The store after requests, from the one that one begins with. -/
def run (requests : List Request) : Store :=
  requests.foldl (fun store request => (request.outcome store).2) Store.initial

/-! ## What requests come to

These read the requests alone, without a store.
-/

/-- The preset that a request chooses. -/
def chosen? : Request → Option Preset
  | .choose name => Preset.ofLabel? name
  | .change _ => none

/-- The overrides that are given for a group: none if the group is absent or its overrides are
empty. -/
def given (groups : Fields) (g : Group) : Except Fault Entries :=
  match Fields.get? groups g.label with
  | none => .ok []
  | some v => if v.isTruthy then overrides v else .ok []

/-- What a request sets in each group, if all of its groups exist and can be read. -/
def changes? : Request → Option Tokens
  | .choose _ => none
  | .change groups =>
      if (groups.all fun (name, _) => (Group.ofLabel? name).isSome) &&
          Group.all.all fun g => (given groups g).isOk then
        some fun g => (given groups g).toOption.getD []
      else none

/-- The preset that was chosen last. -/
def preset (requests : List Request) : Preset :=
  (requests.reverse.findSome? chosen?).getD .default

/-- What was set since a preset was chosen last, request by request. -/
def updates (requests : List Request) : List Tokens :=
  (requests.reverse.takeWhile (·.chosen?.isNone)).reverse.filterMap changes?

/-- Everything that a group's tokens were set to, in order: those of the preset, then those that
were set since. -/
def assigned (requests : List Request) (g : Group) : Entries :=
  (preset requests).tokens g ++ (updates requests).flatMap (· g)

theorem preset_concat (requests : List Request) (request : Request) :
    preset (requests ++ [request]) = request.chosen?.getD (preset requests) := by
  rw [preset, List.reverse_concat, List.findSome?_cons]
  cases request.chosen? with
  | none => rfl
  | some p => rfl

theorem updates_concat_of_chosen {request : Request} {p : Preset}
    (chosen : request.chosen? = some p) (requests : List Request) :
    updates (requests ++ [request]) = [] := by
  simp [updates, chosen]

theorem updates_concat_of_not_chosen {request : Request} (other : request.chosen? = none)
    (requests : List Request) :
    updates (requests ++ [request]) = updates requests ++ request.changes?.toList := by
  have since : (request :: requests.reverse).takeWhile (·.chosen?.isNone) =
      request :: requests.reverse.takeWhile (·.chosen?.isNone) :=
    List.takeWhile_cons_of_pos (by simp [other])
  rw [updates, List.reverse_concat, since, List.reverse_cons, List.filterMap_append]
  rfl

end Request

/-! ## One request -/

theorem Group.ofLabel?_label (g : Group) : Group.ofLabel? g.label = some g := by
  cases g <;> decide

open Request

/-- Overrides are merged one group after the other, each as it is given. -/
theorem Tokens.merge_cons_given (tokens : Tokens) (groups : Fields) (g : Group) (gs : List Group) :
    tokens.merge ((g :: gs).filterMap fun g =>
      (Fields.get? groups g.label).map (g.label, ·)) =
      (given groups g).bind fun fields => (tokens.override g fields).merge
        (gs.filterMap fun g => (Fields.get? groups g.label).map (g.label, ·)) := by
  have unchanged : tokens.override g [] = tokens := by
    funext h
    by_cases same : h = g
    · subst same
      rw [override_same]
      rfl
    · rw [override_of_ne tokens [] same]
  rw [List.filterMap_cons, given]
  cases Fields.get? groups g.label with
  | none => simp [Except.bind, unchanged]
  | some v =>
    simp only [Option.map_some, merge, Group.ofLabel?_label, mergeGroup]
    cases v.isTruthy with
    | false => simp [Except.bind, unchanged, bind]
    | true =>
      cases overrides v with
      | error fault => rfl
      | ok fields => rfl

theorem Tokens.merge_given {groups : Fields} {o : Tokens} {gs : List Group} (distinct : gs.Nodup)
    (read : ∀ g ∈ gs, given groups g = .ok (o g)) (tokens : Tokens) :
    tokens.merge (gs.filterMap fun g => (Fields.get? groups g.label).map (g.label, ·)) =
      .ok fun g => if g ∈ gs then Fields.putAll (tokens g) (o g) else tokens g := by
  induction gs generalizing tokens with
  | nil => simp [merge]
  | cons g gs ih =>
    obtain ⟨absent, others⟩ := List.nodup_cons.mp distinct
    obtain ⟨first, rest⟩ := List.forall_mem_cons.mp read
    rw [merge_cons_given, first, Except.bind, ih others rest]
    congr 1
    funext h
    by_cases same : h = g
    · subst same
      simp [absent]
    · simp [same, override_of_ne tokens (o g) same]

/-- Overrides of a group that cannot be read fail, whatever the others are. -/
theorem Tokens.merge_given_error {groups : Fields} {gs : List Group} {g : Group} (member : g ∈ gs)
    {fault : Fault} (wrong : given groups g = .error fault) (tokens : Tokens) :
    ∃ fault, tokens.merge (gs.filterMap fun g =>
      (Fields.get? groups g.label).map (g.label, ·)) = .error fault := by
  induction gs generalizing tokens with
  | nil => cases member
  | cons first rest ih =>
    rw [merge_cons_given]
    cases read : given groups first with
    | error fault => exact ⟨fault, rfl⟩
    | ok fields =>
      rcases List.mem_cons.mp member with rfl | later
      · cases wrong.symm.trans read
      · exact ih later (tokens.override first fields)

theorem Request.outcome_change (groups : Fields) (store : Store) :
    (Request.change groups).outcome store = (place (store.update groups)).run store :=
  rfl

theorem Store.update_of_changes {groups : Fields} {o : Tokens}
    (changed : (Request.change groups).changes? = some o) (store : Store) :
    store.update groups = .ok ⟨customName, fun g => Fields.putAll (store.tokens g) (o g)⟩ := by
  rw [changes?] at changed
  split at changed
  case isFalse => cases changed
  case isTrue fine =>
  obtain rfl := Option.some.inj changed
  rw [Bool.and_eq_true, List.all_eq_true, List.all_eq_true] at fine
  obtain ⟨known, readable⟩ := fine
  have none_unknown : (groups.find? fun (name, _) => (Group.ofLabel? name).isNone) = none := by
    refine List.find?_eq_none.mpr fun field member => ?_
    simpa [Option.isSome_iff_ne_none] using known field member
  have read : ∀ g ∈ Group.all, given groups g = .ok ((given groups g).toOption.getD []) := by
    intro g member
    have := readable g member
    cases result : given groups g with
    | error fault => simp [result, Except.isOk, Except.toBool] at this
    | ok fields => rfl
  have merged := Tokens.merge_given (by decide) read store.tokens
  simp only [Group.mem_all, if_true] at merged
  simp only [update, none_unknown, merged]
  rfl

theorem Store.update_of_no_changes {groups : Fields}
    (refused : (Request.change groups).changes? = none) (store : Store) :
    ∃ fault, store.update groups = .error fault := by
  rw [update]
  cases unknown : groups.find? fun (name, _) => (Group.ofLabel? name).isNone with
  | some field => exact ⟨_, rfl⟩
  | none =>
    have known : (groups.all fun (name, _) => (Group.ofLabel? name).isSome) = true := by
      refine List.all_eq_true.mpr fun field member => ?_
      simpa [Option.isSome_iff_ne_none] using List.find?_eq_none.mp unknown field member
    have unreadable : ∃ g, (given groups g).isOk = false := by
      simpa [changes?, known, Group.mem_all] using refused
    obtain ⟨g, wrong⟩ := unreadable
    cases read : given groups g with
    | ok fields => simp [read, Except.isOk, Except.toBool] at wrong
    | error fault =>
      obtain ⟨fault, failed⟩ := Tokens.merge_given_error (Group.mem_all g) read store.tokens
      refine ⟨fault, ?_⟩
      simp only [failed]
      rfl

/-- A request that chooses a preset puts it in place; one that makes changes has them set, and the
theme is a custom one; any other request fails, and the store stays as it is. -/
theorem Request.outcome_cases (request : Request) (store : Store) :
    (∃ p, request.chosen? = some p ∧ request.outcome store = (.ok (), Store.ofPreset p)) ∨
    (∃ o, request.chosen? = none ∧ request.changes? = some o ∧ request.outcome store =
      (.ok (), ⟨Store.customName, fun g => Fields.putAll (store.tokens g) (o g)⟩)) ∨
    (request.chosen? = none ∧ request.changes? = none ∧
      ∃ fault, request.outcome store = (.error fault, store)) := by
  cases request with
  | choose name =>
    cases found : Preset.ofLabel? name with
    | some p =>
      refine .inl ⟨p, found, ?_⟩
      rw [outcome, perform, Store.ofName, found]
      rfl
    | none =>
      refine .inr (.inr ⟨found, rfl, .unknownTheme name, ?_⟩)
      rw [outcome, perform, Store.ofName, found]
      rfl
  | change groups =>
    cases changed : (Request.change groups).changes? with
    | some o =>
      refine .inr (.inl ⟨o, rfl, rfl, ?_⟩)
      rw [outcome_change, Store.update_of_changes changed store]
      rfl
    | none =>
      obtain ⟨fault, failed⟩ := Store.update_of_no_changes changed store
      refine .inr (.inr ⟨rfl, rfl, fault, ?_⟩)
      rw [outcome_change, failed]
      rfl

/-! ## All requests -/

theorem Preset.putAll_tokens (p : Preset) (g : Group) : Fields.putAll [] (p.tokens g) = p.tokens g := by
  cases p <;> cases g <;> rfl

theorem Preset.label_ne_custom (p : Preset) : p.label ≠ Store.customName := by
  cases p <;> decide

namespace Request

theorem run_concat (requests : List Request) (request : Request) :
    run (requests ++ [request]) = (request.outcome (run requests)).2 :=
  List.foldl_concat ..

theorem run_tokens (requests : List Request) (g : Group) :
    (run requests).tokens g =
      Fields.putAll ((preset requests).tokens g) ((updates requests).flatMap (· g)) := by
  induction requests using List.reverseRecOn with
  | nil => rfl
  | append_singleton requests request ih =>
    rw [run_concat, preset_concat]
    obtain ⟨p, chosen, done⟩ | ⟨o, other, changed, done⟩ | ⟨other, refused, fault, done⟩ :=
      outcome_cases request (run requests)
    · rw [done, chosen, updates_concat_of_chosen chosen]
      rfl
    · rw [done, other, updates_concat_of_not_chosen other, changed]
      simp [ih, Fields.putAll_append]
    · rw [done, other, updates_concat_of_not_chosen other, refused]
      simp [ih]

theorem run_name (requests : List Request) : (run requests).name =
    if updates requests = [] then (preset requests).label else Store.customName := by
  induction requests using List.reverseRecOn with
  | nil => rfl
  | append_singleton requests request ih =>
    rw [run_concat, preset_concat]
    obtain ⟨p, chosen, done⟩ | ⟨o, other, changed, done⟩ | ⟨other, refused, fault, done⟩ :=
      outcome_cases request (run requests)
    · rw [done, chosen, updates_concat_of_chosen chosen]
      rfl
    · rw [done, other, updates_concat_of_not_chosen other, changed]
      simp
    · rw [done, other, updates_concat_of_not_chosen other, refused]
      simpa using ih

/-- Setting the preset's tokens as well makes everything that a group has. -/
theorem run_tokens_eq_assigned (requests : List Request) (g : Group) :
    (run requests).tokens g = Fields.putAll [] (assigned requests g) := by
  rw [run_tokens, assigned, Fields.putAll_append, Preset.putAll_tokens]

theorem keys_run (requests : List Request) (g : Group) :
    Fields.keys ((run requests).tokens g) = (Fields.keys (assigned requests g)).eraseDups := by
  rw [run_tokens_eq_assigned, Fields.keys_putAll_nil]

/-- Requests that set no keys but texts make a store whose keys are all written apart. -/
theorem distinct_run {requests : List Request}
    (texts : ∀ g, ∀ k ∈ Fields.keys (assigned requests g), ∃ s, k = .ofText s) :
    (run requests).tokens.Distinct := fun g => by
  refine Entries.nodup_named ?_ fun k member => ?_
  · rw [keys_run]
    exact Fields.pairwise_eraseDups _
  · rw [keys_run] at member
    exact texts g k ((Fields.sublist_eraseDups _).subset member)

/-- A store is what its requests made of it. The keys of a group are those of the preset that was
chosen last and of everything that was set since, in the order in which they appeared first; each
has the value that it was set to last. The theme is a custom one exactly if something was set since
the preset was chosen. A request fails exactly if it neither chooses a preset nor makes changes
that can be read as a whole, and then it leaves any store as it was. -/
theorem history (requests : List Request) :
    (∀ g, Fields.keys ((run requests).tokens g) = (Fields.keys (assigned requests g)).eraseDups ∧
      ∀ key, ((run requests).tokens g).lookup key = (assigned requests g).reverse.lookup key) ∧
    ((run requests).name = Store.customName ↔ updates requests ≠ []) ∧
    (updates requests = [] → (run requests).name = (preset requests).label) ∧
    ∀ (request : Request) (store : Store),
      ((∃ fault, (request.outcome store).1 = .error fault) ↔
        request.chosen? = none ∧ request.changes? = none) ∧
      ∀ fault, (request.outcome store).1 = .error fault → (request.outcome store).2 = store := by
  refine ⟨fun g => ⟨?_, fun key => ?_⟩, ?_, fun none_since => ?_, fun request store => ?_⟩
  · exact keys_run requests g
  · rw [run_tokens_eq_assigned, Fields.lookup_putAll, List.lookup_nil, Option.or_none]
  · rw [run_name]
    by_cases none_since : updates requests = []
    · simp [none_since, Preset.label_ne_custom]
    · simp [none_since]
  · rw [run_name, if_pos none_since]
  · obtain ⟨p, chosen, done⟩ | ⟨o, other, changed, done⟩ | ⟨other, refused, fault, done⟩ :=
      outcome_cases request store
    · simp [done, chosen]
    · simp [done, changed]
    · simp [done, other, refused]

example : (run [.choose "dark", .change [("colors", .table [("text", .null)]),
    ("shadows", .int 3)]]).name = "dark" := by decide

end Request

end Theme

end StaticSite
