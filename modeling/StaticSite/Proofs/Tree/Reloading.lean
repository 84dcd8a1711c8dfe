import StaticSite.Tree.Dump
import StaticSite.Tree.Load
import StaticSite.Tree.Walk

/-! # Loading what was dumped

A dump leaves out what is null among the properties and variants that are kept as raw data. Apart
from that a tree that is dumped and loaded again is the tree it was, as long as its raw properties
hold nothing under the second spelling of a field that is absent.
-/

namespace StaticSite

/-! ## Fields -/

namespace Fields

theorem get?_append (before after : Fields) (key : String) :
    get? (before ++ after) key = (get? before key).or (get? after key) := by
  induction before with
  | nil => rfl
  | cons field rest ih =>
    obtain ⟨k, v⟩ := field
    simp only [get?, List.cons_append, List.lookup_cons] at ih ⊢
    split
    · rfl
    · exact ih

theorem get?_nil (key : String) : get? [] key = none := rfl

theorem get?_cons (k : String) (v : Value) (rest : Fields) (key : String) :
    get? ((k, v) :: rest) key = if key = k then some v else get? rest key := by
  by_cases same : key = k
  · simp [get?, same]
  · simp [get?, List.lookup_cons, same, beq_false_of_ne same]

theorem get?_eq_none_iff {fields : Fields} {key : String} :
    get? fields key = none ↔ key ∉ keys fields := by
  induction fields with
  | nil => simp [get?_nil, keys]
  | cons field rest ih =>
    obtain ⟨k, v⟩ := field
    rw [get?_cons, keys, List.map_cons, List.mem_cons, not_or, ← keys, ← ih]
    by_cases same : key = k <;> simp [same]

theorem mem_of_get? {fields : Fields} {key : String} {v : Value}
    (found : get? fields key = some v) : (key, v) ∈ fields := by
  induction fields with
  | nil => cases found
  | cons field rest ih =>
    obtain ⟨k, w⟩ := field
    rw [get?_cons] at found
    split at found
    next same =>
      obtain rfl := Option.some.inj found
      exact same ▸ List.mem_cons_self ..
    next => exact List.mem_cons_of_mem _ (ih found)

end Fields

/-- Whether a value is null. -/
def Value.isNull : Value → Bool
  | .null => true
  | _ => false

namespace Dump

theorem present_eq (fields : Fields) : present fields = fields.filter (!·.2.isNull) := by
  refine List.filter_congr fun field _ => ?_
  obtain ⟨key, v⟩ := field
  cases v <;> rfl

/-- What is not null has keys that were there before. -/
theorem keys_present_sublist (fields : Fields) :
    (Fields.keys (present fields)).Sublist (Fields.keys fields) :=
  List.filter_sublist.map _

/-- A key is read among what is not null as it was, except that null is absent. -/
theorem get?_present {fields : Fields} (distinct : (Fields.keys fields).Nodup) (key : String) :
    Fields.get? (present fields) key = (Fields.get? fields key).filter (!·.isNull) := by
  induction fields with
  | nil => rfl
  | cons field rest ih =>
    obtain ⟨k, v⟩ := field
    obtain ⟨fresh, others⟩ := List.nodup_cons.mp distinct
    have next := ih others
    rw [present_eq] at next ⊢
    rw [Fields.get?_cons, List.filter_cons]
    by_cases same : key = k
    · subst same
      have absent : Fields.get? rest key = none := Fields.get?_eq_none_iff.mpr fresh
      rw [if_pos rfl, Option.filter_some]
      split
      · rw [Fields.get?_cons, if_pos rfl]
      · rw [next, absent, Option.filter_none]
    · rw [if_neg same]
      split
      · rw [Fields.get?_cons, if_neg same, next]
      · exact next

theorem ne_null_of_get?_present {fields : Fields} {key : String} {v : Value}
    (found : Fields.get? (present fields) key = some v) : v ≠ .null := by
  rintro rfl
  have member := Fields.mem_of_get? found
  rw [present_eq] at member
  cases (List.mem_filter.mp member).2

theorem get?_optional (key : String) (o : Option String) (name : String) :
    Fields.get? (optional key o) name = if name = key then o.map .text else none := by
  cases o with
  | none => rw [Option.map_none, ite_self]; rfl
  | some s => exact Fields.get?_cons ..

end Dump

/-! ## Checks of what was dumped -/

namespace Checked

variable {α : Type}

theorem eachFrom_map {check : Value → Checked α} {dump : α → Value}
    (each : ∀ a, check (dump a) = valid a) (items : List α) (n : Nat) :
    eachFrom check n (items.map dump) = valid items := by
  induction items generalizing n with
  | nil => rfl
  | cons a rest ih =>
    rw [List.map_cons, eachFrom, each, ih]
    rfl

theorem list_map {check : Value → Checked α} {dump : α → Value}
    (each : ∀ a, check (dump a) = valid a) (items : List α) :
    list check (.list (items.map dump)) = valid items :=
  eachFrom_map each items 0

theorem eachField_map {check : Value → Checked α} {dump : α → Value}
    (each : ∀ a, check (dump a) = valid a) (items : List (String × α)) :
    eachField check (items.map fun (name, a) => (name, dump a)) = valid items := by
  induction items with
  | nil => rfl
  | cons item rest ih =>
    obtain ⟨name, a⟩ := item
    rw [List.map_cons, eachField, each, ih]
    rfl

/-- A field that is there under its first name is read as it is. -/
theorem field_first {name : String} {others : List String} {default a : α} {v : Value}
    {check : Value → Checked α} {fields : Fields} (found : Fields.get? fields name = some v)
    (checked : check v = valid a) : field (name :: others) default check fields = valid a := by
  rw [field, lookup, List.findSome?_cons, found]
  simp only [Option.map_some, checked]
  rfl

/-- A field that is there under none of its names has its default. -/
theorem field_absent {names : List String} {default : α} {check : Value → Checked α}
    {fields : Fields} (absent : ∀ name ∈ names, Fields.get? fields name = none) :
    field names default check fields = valid default := by
  have unread : lookup names fields = none := by
    rw [lookup, List.findSome?_eq_none_iff]
    intro name member
    rw [absent name member, Option.map_none]
  rw [field, unread]

end Checked

namespace Check

theorem scalar_toValue (s : Scalar) : scalar s.toValue = .valid s := by
  cases s with
  | text s => rfl
  | number q => cases q <;> rfl

theorem quantity_toValue (q : Quantity) : quantity q.toValue = .valid q := by
  cases q <;> rfl

theorem properties_dump (ps : Properties) :
    Checked.table scalar (Dump.properties ps) = .valid ps :=
  Checked.eachField_map scalar_toValue ps

theorem keyframe_dump (k : Keyframe) : keyframe (Dump.keyframe k) = .valid k := by
  have properties := properties_dump k.properties
  simp [keyframe, Dump.keyframe, Checked.model, Checked.required, Checked.field, Checked.lookup,
    Fields.get?_cons, Fields.get?_nil, properties, float, Checked.ap, Checked.under]

theorem playback_dump (p : Playback) : playback (Dump.playback p) = .valid p := by
  have duration := quantity_toValue p.duration
  have delay := quantity_toValue p.delay
  obtain ⟨_, _, _, _, direction⟩ := p
  cases direction <;>
    simp [playback, Dump.playback, Dump.optional, Checked.model, Checked.field, Checked.lookup,
      Fields.get?_cons, Fields.get?_nil, duration, delay, text, bool, Checked.optional,
      Checked.ap, Checked.under, Checked.map]

theorem animation_dump (a : Animation) : animation (Dump.animation a) = .valid a := by
  have timeline := Checked.list_map keyframe_dump a.timeline
  have playback := playback_dump a.playback
  simp [animation, Dump.animation, Checked.model, Checked.required, Checked.field, Checked.lookup,
    Fields.get?_cons, Fields.get?_nil, timeline, playback, text, Checked.ap, Checked.under]

/-- Code that is dumped under its first name, if at all, is read as it is. -/
theorem code_dump {name : String} {aliases : List String} {o : Option String} {fields : Fields}
    (own : Fields.get? fields name = o.map .text)
    (others : ∀ other ∈ aliases, Fields.get? fields other = none) :
    code (name :: aliases) fields = .valid o := by
  cases o with
  | some s => exact Checked.field_first own rfl
  | none => exact Checked.field_absent (List.forall_mem_cons.mpr ⟨own, others⟩)

theorem customCode_dump (c : CustomCode) : customCode (Dump.customCode c) = .valid c := by
  rw [customCode, Dump.customCode, Checked.model, @code_dump "css" _ c.css,
    @code_dump "javascript" _ c.javascript, @code_dump "beforeMount" _ c.beforeMount,
    @code_dump "onMount" _ c.onMount, @code_dump "onClick" _ c.onClick,
    @code_dump "onHover" _ c.onHover, @code_dump "onScroll" _ c.onScroll]
  · rfl
  all_goals simp [Fields.get?_append, Dump.get?_optional]

end Check

/-! ## Trees without what is null -/

/-- Properties without the raw ones that are null. -/
def Props.pruned (p : Props) : Props := { p with extra := Dump.present p.extra }

/-- Styles without the variants that are null. -/
def Styles.pruned (s : Styles) : Styles := { s with variants := Dump.present s.variants }

mutual

/-- A component without what is null in it and below it. -/
def Component.pruned : Component → Component
  | ⟨id, type, displayName, props, styles, children⟩ =>
      ⟨id, type, displayName, props.pruned, styles.pruned, Tree.prunedAll children⟩

/-- A tree without what is null in it. -/
def Tree.prunedAll : List Component → List Component
  | [] => []
  | c :: rest => c.pruned :: Tree.prunedAll rest

end

/-- Properties whose raw ones have names of their own, as they come from data. -/
def Props.Separate (p : Props) : Prop :=
  ∀ key ∈ Fields.keys p.extra, key ∉ ["content", "attributes", "animations", "customCode"]

/-- The raw properties that are not null have names of their own. -/
theorem Props.Separate.present {p : Props} (separate : p.Separate) :
    ∀ key ∈ Fields.keys (Dump.present p.extra),
      key ∉ ["content", "attributes", "animations", "customCode"] := fun key found =>
  separate key ((Dump.keys_present_sublist p.extra).subset found)

theorem Props.Separate.get?_present {p : Props} (separate : p.Separate) (key : String)
    (known : key ∈ ["content", "attributes", "animations", "customCode"]) :
    Fields.get? (Dump.present p.extra) key = none :=
  Fields.get?_eq_none_iff.mpr fun found => separate.present key found known

/-- Styles whose variants have names of their own, as they come from data. -/
def Styles.Separate (s : Styles) : Prop := "base" ∉ Fields.keys s.variants

/-- A component of which all raw data has names of its own. -/
def Component.Separate (c : Component) : Prop := c.props.Separate ∧ c.styles.Separate

/-- Properties that hold nothing under the second spelling of code that is absent. -/
def Props.Unshadowed (p : Props) : Prop :=
  p.customCode = none → Fields.get? (Dump.present p.extra) "custom_code" = none

namespace Check

/-- Content is read as it is, whatever the other fields are. -/
theorem content_dump (c : Content) {fields : Fields}
    (own : Fields.get? fields "content" = Fields.get? (Dump.content c) "content") :
    Checked.field ["content"] .none content fields = .valid c := by
  cases c with
  | none => exact Checked.field_absent (List.forall_mem_singleton.mpr own)
  | text s => exact Checked.field_first own rfl
  | block parts => exact Checked.field_first own rfl

theorem optional_customCode_dump (c : CustomCode) :
    Checked.optional customCode (Dump.customCode c) = .valid (some c) := by
  have read := customCode_dump c
  rw [Dump.customCode] at read ⊢
  rw [Checked.optional, read]
  · rfl
  · intro null
    cases null

/-- The fields of dumped properties that are read by name. -/
theorem get?_props_dump {p : Props} {fields : Fields} (dumped : Dump.props p = .table fields)
    (separate : p.Separate) :
    Fields.get? fields "content" = Fields.get? (Dump.content p.content) "content" ∧
      Fields.get? fields "attributes" = some (Dump.properties p.attributes) ∧
      Fields.get? fields "animations" = some (.list (p.animations.map Dump.animation)) ∧
      Fields.get? fields "customCode" = p.customCode.map Dump.customCode ∧
      Fields.get? fields "custom_code" = Fields.get? (Dump.present p.extra) "custom_code" := by
  have noContent := separate.get?_present "content" (by decide)
  have noCode := separate.get?_present "customCode" (by decide)
  obtain ⟨content, attributes, animations, code, extra⟩ := p
  obtain rfl := Value.table.inj dumped
  cases content <;> cases code <;>
    simp [Dump.content, Fields.get?_cons, Fields.get?_nil, noContent, noCode]

/-- What is left of dumped properties without the fields that are read by name. -/
theorem remaining_props_dump {p : Props} {fields : Fields} (dumped : Dump.props p = .table fields)
    (separate : p.Separate) (clear : p.Unshadowed) :
    remaining [["content"], ["attributes"], ["animations"], ["customCode", "custom_code"]] fields =
      Dump.present p.extra := by
  have others (key : String) (v : Value) (member : (key, v) ∈ Dump.present p.extra) :
      key ≠ "content" ∧ key ≠ "attributes" ∧ key ≠ "animations" ∧ key ≠ "customCode" := by
    simpa using separate.present key (List.mem_map_of_mem member)
  have noContent := separate.get?_present "content" (by decide)
  have noCode := separate.get?_present "customCode" (by decide)
  obtain ⟨content, attributes, animations, code, extra⟩ := p
  have clear : code = none → Fields.get? (Dump.present extra) "custom_code" = none := clear
  obtain rfl := Value.table.inj dumped
  cases content <;> cases code <;>
    simp_all [remaining, Checked.lookup, Dump.content, Fields.get?_cons]
  all_goals
    intro key v member
    simp [others key v member]

/-- Properties that are dumped and checked again are there but for what is null, where nothing
stands under the second spelling of code that is absent. -/
theorem props_dump {p : Props} (separate : p.Separate) (clear : p.Unshadowed) :
    props (Dump.props p) = .valid p.pruned := by
  obtain ⟨fields, dumped⟩ : ∃ fields, Dump.props p = .table fields := ⟨_, rfl⟩
  obtain ⟨contentRead, attributesRead, animationsRead, codeRead, aliasRead⟩ :=
    get?_props_dump dumped separate
  have code : Checked.field ["customCode", "custom_code"] none (.optional customCode) fields =
      .valid p.customCode := by
    cases absent : p.customCode with
    | some c =>
      rw [absent] at codeRead
      exact Checked.field_first codeRead (optional_customCode_dump c)
    | none =>
      rw [absent] at codeRead
      rw [clear absent] at aliasRead
      exact Checked.field_absent (List.forall_mem_cons.mpr
        ⟨codeRead, List.forall_mem_singleton.mpr aliasRead⟩)
  rw [dumped, props, Checked.model]
  dsimp only
  rw [content_dump p.content contentRead, code, remaining_props_dump dumped separate clear,
    Checked.field_first attributesRead (properties_dump p.attributes),
    Checked.field_first animationsRead (Checked.list_map animation_dump p.animations)]
  rfl

/-- Styles that are dumped and checked again are there but for the variants that are null. -/
theorem styles_dump {s : Styles} (separate : s.Separate) : styles (Dump.styles s) = .valid s.pruned := by
  have others : ∀ field ∈ Dump.present s.variants, field.1 ≠ "base" := by
    rintro field member same
    exact separate (same ▸ (Dump.keys_present_sublist s.variants).subset
      (List.mem_map_of_mem member))
  have read : Fields.get? (("base", Dump.properties s.base) :: Dump.present s.variants) "base" =
      some (Dump.properties s.base) := Fields.get?_cons ..
  have kept : remaining [["base"]]
      (("base", Dump.properties s.base) :: Dump.present s.variants) = Dump.present s.variants := by
    rw [remaining]
    simpa [Checked.lookup, read] using others
  rw [styles, Dump.styles, Checked.model,
    Checked.field_first read (properties_dump s.base), kept]
  rfl

/-- A component whose children are checked as they are dumped. -/
theorem component_dump_of_children {c : Component} (own : c.Separate) (clear : c.props.Unshadowed)
    (children : forest (.list (Dump.components c.children)) = .valid (Tree.prunedAll c.children)) :
    component (Dump.component c) = .valid c.pruned := by
  obtain ⟨id, type, displayName, props, styles, children⟩ := c
  have props := props_dump own.1 clear
  have styles := styles_dump own.2
  simp only at props styles children
  simp [component, Dump.component, componentWith, childrenField, Checked.required, Checked.field,
    Checked.lookup, Fields.get?_cons, text, props, styles, children, Checked.ap, Checked.under,
    Component.pruned]

mutual

/-- A component that is dumped and checked again is there but for what is null. -/
theorem component_dump : ∀ {c : Component}, (∀ d ∈ Tree.preorder c, d.Separate) →
    (∀ d ∈ Tree.preorder c, d.props.Unshadowed) → component (Dump.component c) = .valid c.pruned
  | ⟨id, type, displayName, props, styles, children⟩, separate, clear => by
    rw [Tree.preorder, List.forall_mem_cons] at separate clear
    exact component_dump_of_children separate.1 clear.1 (componentsFrom_dump separate.2 clear.2 0)

/-- Components that are dumped and checked again are there but for what is null. -/
theorem componentsFrom_dump : ∀ {cs : List Component},
    (∀ d ∈ Tree.preorderAll cs, d.Separate) → (∀ d ∈ Tree.preorderAll cs, d.props.Unshadowed) →
    ∀ n, componentsFrom n (Dump.components cs) = .valid (Tree.prunedAll cs)
  | [], _, _, _ => rfl
  | c :: rest, separate, clear, n => by
    rw [Tree.preorderAll, List.forall_mem_append] at separate clear
    rw [Dump.components, componentsFrom, component_dump separate.1 clear.1,
      componentsFrom_dump separate.2 clear.2 (n + 1)]
    rfl

end

end Check

/-! ## Trees as they are loaded -/

mutual

/-- Data in which no table has a key twice. -/
def Value.Distinct : Value → Prop
  | .list items => Value.DistinctItems items
  | .table fields => (Fields.keys fields).Nodup ∧ Value.DistinctFields fields
  | _ => True

/-- Data in none of which a table has a key twice. -/
def Value.DistinctItems : List Value → Prop
  | [] => True
  | v :: rest => v.Distinct ∧ Value.DistinctItems rest

/-- Fields in the values of which no table has a key twice. -/
def Value.DistinctFields : List (String × Value) → Prop
  | [] => True
  | (_, v) :: rest => v.Distinct ∧ Value.DistinctFields rest

end

/-- A component whose raw data has no key twice. -/
def Component.Distinct (c : Component) : Prop :=
  (Fields.keys c.props.extra).Nodup ∧ (Fields.keys c.styles.variants).Nodup

theorem Value.DistinctFields.get? {fields : Fields} (distinct : Value.DistinctFields fields)
    {key : String} {v : Value} (found : Fields.get? fields key = some v) : v.Distinct := by
  induction fields with
  | nil => cases found
  | cons field rest ih =>
    obtain ⟨k, w⟩ := field
    rw [Fields.get?_cons] at found
    split at found
    · exact Option.some.inj found ▸ distinct.1
    · exact ih distinct.2 found

namespace Checked

variable {α β : Type}

theorem ap_eq_valid_iff {f : Checked (α → β)} {x : Checked α} {b : β} :
    f.ap x = valid b ↔ ∃ g a, f = valid g ∧ x = valid a ∧ g a = b := by
  cases f <;> cases x <;> simp [ap]

theorem under_eq_valid_iff {step : Step} {x : Checked α} {a : α} :
    x.under step = valid a ↔ x = valid a := by
  cases x <;> simp [under]

/-- A field that passes its check has its default or was found in the fields. -/
theorem field_eq_valid {names : List String} {default a : α} {check : Value → Checked α}
    {fields : Fields} (checked : field names default check fields = valid a) :
    a = default ∨ ∃ name v, Fields.get? fields name = some v ∧ check v = valid a := by
  rw [field] at checked
  cases found : lookup names fields with
  | none =>
    rw [found] at checked
    exact .inl (valid.inj checked).symm
  | some entry =>
    obtain ⟨name, v⟩ := entry
    rw [found] at checked
    obtain ⟨key, -, read⟩ := List.exists_of_findSome?_eq_some found
    obtain ⟨w, here, same⟩ := Option.map_eq_some_iff.mp read
    obtain ⟨rfl, rfl⟩ := Prod.mk.inj same
    exact .inr ⟨key, w, here, under_eq_valid_iff.mp checked⟩

end Checked

namespace Check

theorem keys_remaining_sublist (names : List (List String)) (fields : Fields) :
    (Fields.keys (remaining names fields)).Sublist (Fields.keys fields) :=
  List.filter_sublist.map _

/-- What remains has none of the first spellings. -/
theorem not_mem_keys_remaining {names : List (List String)} {name : String}
    (listed : ∃ aliases, name :: aliases ∈ names) (fields : Fields) :
    name ∉ Fields.keys (remaining names fields) := by
  intro found
  obtain ⟨aliases, listed⟩ := listed
  obtain ⟨field, member, rfl⟩ := List.mem_map.mp found
  obtain ⟨there, unread⟩ := List.mem_filter.mp member
  obtain ⟨v, here⟩ : ∃ v, Fields.get? fields field.1 = some v := by
    refine Option.ne_none_iff_exists'.mp fun absent => ?_
    exact Fields.get?_eq_none_iff.mp absent (List.mem_map_of_mem there)
  have read : field.1 ∈ names.filterMap fun spellings =>
      (Checked.lookup spellings fields).map (·.1) := by
    refine List.mem_filterMap.mpr ⟨_, listed, ?_⟩
    rw [Checked.lookup, List.findSome?_cons, here]
    rfl
  simp [read] at unread

theorem props_loaded {v : Value} {p : Props} (checked : props v = .valid p) :
    p.Separate ∧ (v.Distinct → (Fields.keys p.extra).Nodup) := by
  cases v with
  | table fields =>
    simp only [props, Checked.model, Checked.ap_eq_valid_iff] at checked
    obtain ⟨_, extra, ⟨_, _, ⟨_, _, ⟨_, _, ⟨_, _, mk, -, rfl⟩, -, rfl⟩, -, rfl⟩, -, rfl⟩, kept, rfl⟩ :=
      checked
    obtain rfl := Checked.valid.inj mk
    obtain rfl := Checked.valid.inj kept
    constructor
    · rintro key found known
      simp only [List.mem_cons, List.not_mem_nil, or_false] at known
      obtain rfl | rfl | rfl | rfl := known <;>
        exact not_mem_keys_remaining (by simp) fields found
    · intro distinct
      exact distinct.1.sublist (keys_remaining_sublist _ fields)
  | _ => cases checked

theorem styles_loaded {v : Value} {s : Styles} (checked : styles v = .valid s) :
    s.Separate ∧ (v.Distinct → (Fields.keys s.variants).Nodup) := by
  cases v with
  | table fields =>
    simp only [styles, Checked.model, Checked.ap_eq_valid_iff] at checked
    obtain ⟨_, variants, ⟨_, _, mk, -, rfl⟩, kept, rfl⟩ := checked
    obtain rfl := Checked.valid.inj mk
    obtain rfl := Checked.valid.inj kept
    constructor
    · exact not_mem_keys_remaining (by simp) fields
    · intro distinct
      exact distinct.1.sublist (keys_remaining_sublist _ fields)
  | _ => cases checked

/-- The checks that the parts of a component have passed. -/
theorem componentWith_eq_valid {fields : Fields} {children : Checked (List Component)}
    {c : Component} (checked : componentWith fields children = .valid c) :
    Checked.field ["props"] {} props fields = .valid c.props ∧
      Checked.field ["styles"] {} styles fields = .valid c.styles ∧
      children = .valid c.children := by
  simp only [componentWith, Checked.ap_eq_valid_iff] at checked
  obtain ⟨_, below, ⟨_, s, ⟨_, p, ⟨_, _, ⟨_, _, ⟨_, _, mk, -, rfl⟩, -, rfl⟩, -, rfl⟩, hp, rfl⟩, hs, rfl⟩,
    found, rfl⟩ := checked
  obtain rfl := Checked.valid.inj mk
  exact ⟨hp, hs, found⟩

/-- A component itself is as it is loaded. -/
theorem componentWith_loaded {fields : Fields} {children : Checked (List Component)}
    {c : Component} (checked : componentWith fields children = .valid c) :
    c.Separate ∧ (Value.DistinctFields fields → c.Distinct) := by
  obtain ⟨hp, hs, -⟩ := componentWith_eq_valid checked
  have props : c.props.Separate ∧
      (Value.DistinctFields fields → (Fields.keys c.props.extra).Nodup) := by
    obtain default | ⟨name, v, read, passed⟩ := Checked.field_eq_valid hp
    · rw [default]
      exact ⟨by simp [Props.Separate, Fields.keys], fun _ => List.nodup_nil⟩
    · exact (props_loaded passed).imp_right fun loaded distinct => loaded (distinct.get? read)
  have styles : c.styles.Separate ∧
      (Value.DistinctFields fields → (Fields.keys c.styles.variants).Nodup) := by
    obtain default | ⟨name, v, read, passed⟩ := Checked.field_eq_valid hs
    · rw [default]
      exact ⟨by simp [Styles.Separate, Fields.keys], fun _ => List.nodup_nil⟩
    · exact (styles_loaded passed).imp_right fun loaded distinct => loaded (distinct.get? read)
  exact ⟨⟨props.1, styles.1⟩, fun distinct => ⟨props.2 distinct, styles.2 distinct⟩⟩

mutual

/-- All components of a loaded component are as they are loaded. -/
theorem component_loaded : ∀ {v : Value} {c : Component}, component v = .valid c →
    ∀ d ∈ Tree.preorder c, d.Separate ∧ (v.Distinct → d.Distinct)
  | .table fields, c, checked => by
    rw [component] at checked
    obtain ⟨-, -, below⟩ := componentWith_eq_valid checked
    rw [Tree.preorder_eq, List.forall_mem_cons]
    refine ⟨(componentWith_loaded checked).imp_right fun loaded distinct => loaded distinct.2,
      fun d member => ?_⟩
    exact (childrenField_loaded below d member).imp_right fun loaded distinct => loaded distinct.2
  | .null, _, checked | .bool _, _, checked | .int _, _, checked | .float _, _, checked
  | .text _, _, checked | .list _, _, checked | .moment _, _, checked => by
    cases checked

theorem childrenField_loaded : ∀ {fields : List (String × Value)} {cs : List Component},
    childrenField fields = .valid cs →
    ∀ d ∈ Tree.preorderAll cs, d.Separate ∧ (Value.DistinctFields fields → d.Distinct)
  | [], cs, checked => by
    rw [childrenField] at checked
    obtain rfl := Checked.valid.inj checked
    rintro d ⟨⟩
  | (key, v) :: rest, cs, checked => by
    rw [childrenField] at checked
    split at checked
    · intro d member
      exact (forest_loaded (Checked.under_eq_valid_iff.mp checked) d member).imp_right
        fun loaded distinct => loaded distinct.1
    · intro d member
      exact (childrenField_loaded checked d member).imp_right
        fun loaded distinct => loaded distinct.2

theorem forest_loaded : ∀ {v : Value} {cs : List Component}, forest v = .valid cs →
    ∀ d ∈ Tree.preorderAll cs, d.Separate ∧ (v.Distinct → d.Distinct)
  | .list items, cs, checked => by
    rw [forest] at checked
    exact componentsFrom_loaded checked
  | .null, _, checked | .bool _, _, checked | .int _, _, checked | .float _, _, checked
  | .text _, _, checked | .table _, _, checked | .moment _, _, checked => by
    cases checked

theorem componentsFrom_loaded : ∀ {items : List Value} {n : Nat} {cs : List Component},
    componentsFrom n items = .valid cs →
    ∀ d ∈ Tree.preorderAll cs, d.Separate ∧ (Value.DistinctItems items → d.Distinct)
  | [], n, cs, checked => by
    rw [componentsFrom] at checked
    obtain rfl := Checked.valid.inj checked
    rintro d ⟨⟩
  | v :: rest, n, cs, checked => by
    rw [componentsFrom] at checked
    simp only [Checked.ap_eq_valid_iff, Checked.under_eq_valid_iff] at checked
    obtain ⟨_, others, ⟨_, c, mk, first, rfl⟩, later, rfl⟩ := checked
    obtain rfl := Checked.valid.inj mk
    rw [Tree.preorderAll, List.forall_mem_append]
    constructor
    · intro d member
      exact (component_loaded first d member).imp_right fun loaded distinct => loaded distinct.1
    · intro d member
      exact (componentsFrom_loaded later d member).imp_right
        fun loaded distinct => loaded distinct.2

end

/-- Properties that are the same but for what is null after they were dumped and checked again hold
nothing under the second spelling of code that is absent. -/
theorem unshadowed_of_props_dump {p : Props} (separate : p.Separate)
    (same : props (Dump.props p) = .valid p.pruned) : p.Unshadowed := by
  intro absent
  obtain ⟨fields, dumped⟩ : ∃ fields, Dump.props p = .table fields := ⟨_, rfl⟩
  obtain ⟨-, -, -, codeRead, aliasRead⟩ := get?_props_dump dumped separate
  rw [dumped] at same
  simp only [props, Checked.model, Checked.ap_eq_valid_iff] at same
  obtain ⟨_, extra, ⟨_, code, ⟨_, _, ⟨_, _, ⟨_, _, mk, -, rfl⟩, -, rfl⟩, -, rfl⟩, read, rfl⟩, kept, same⟩ :=
    same
  obtain rfl := Checked.valid.inj mk
  obtain rfl : code = none := (congrArg Props.customCode same).trans absent
  rw [absent, Option.map_none] at codeRead
  rw [← aliasRead]
  cases found : Fields.get? fields "custom_code" with
  | none => rfl
  | some v =>
    -- What stands there is not null, so that it is read as code or refused, never as absent.
    have other : v ≠ .null := Dump.ne_null_of_get?_present (aliasRead ▸ found)
    simp only [Checked.field, Checked.lookup, List.findSome?_cons, codeRead, found,
      Option.map_none, Option.map_some, Checked.under_eq_valid_iff] at read
    rw [Checked.optional] at read
    · cases passed : customCode v <;> rw [passed] at read <;> cases read
    · exact other

mutual

/-- A component that is the same but for what is null after it was dumped and checked again has
nothing under the second spelling of code that is absent. -/
theorem unshadowed_of_component_dump : ∀ {c : Component}, (∀ d ∈ Tree.preorder c, d.Separate) →
    component (Dump.component c) = .valid c.pruned → ∀ d ∈ Tree.preorder c, d.props.Unshadowed
  | ⟨id, type, displayName, props, styles, children⟩, separate, same => by
    rw [Tree.preorder, List.forall_mem_cons] at separate ⊢
    rw [Dump.component, component] at same
    obtain ⟨ofProps, -, below⟩ := componentWith_eq_valid same
    constructor
    · refine unshadowed_of_props_dump separate.1.1 ?_
      simpa [Checked.field, Checked.lookup, Fields.get?_cons, Checked.under_eq_valid_iff,
        Component.pruned] using ofProps
    · refine unshadowed_of_componentsFrom_dump separate.2 (n := 0) ?_
      simpa [childrenField, Checked.under_eq_valid_iff, forest, Component.pruned] using below

theorem unshadowed_of_componentsFrom_dump : ∀ {cs : List Component} {n : Nat},
    (∀ d ∈ Tree.preorderAll cs, d.Separate) →
    componentsFrom n (Dump.components cs) = .valid (Tree.prunedAll cs) →
    ∀ d ∈ Tree.preorderAll cs, d.props.Unshadowed
  | [], n, _, _ => by
    rintro d ⟨⟩
  | c :: rest, n, separate, same => by
    rw [Tree.preorderAll, List.forall_mem_append] at separate ⊢
    rw [Dump.components, componentsFrom, Tree.prunedAll] at same
    simp only [Checked.ap_eq_valid_iff, Checked.under_eq_valid_iff] at same
    obtain ⟨_, others, ⟨_, first, mk, here, rfl⟩, later, whole⟩ := same
    obtain rfl := Checked.valid.inj mk
    obtain ⟨rfl, rfl⟩ := List.cons.inj whole
    exact ⟨unshadowed_of_component_dump separate.1 here,
      unshadowed_of_componentsFrom_dump separate.2 later⟩

end

end Check

namespace Tree

/-- A list of components is loaded as the check of it gives them. -/
theorem forest_of_loadList {v : Value} {tree : List Component} (listed : loadList v = .ok tree) :
    Check.forest v = .valid tree := by
  rw [loadList] at listed
  cases checked : Check.forest v with
  | invalid issues =>
    rw [checked] at listed
    cases listed
  | valid cs =>
    rw [checked] at listed
    rw [Except.ok.inj listed]

/-- All components of a loaded tree are as they are loaded. -/
theorem load_loaded {v : Value} {tree : List Component} (loaded : load v = .ok tree) :
    ∀ d ∈ preorderAll tree, d.Separate ∧ (v.Distinct → d.Distinct) := by
  have ofList {v : Value} (listed : loadList v = .ok tree) :
      ∀ d ∈ preorderAll tree, d.Separate ∧ (v.Distinct → d.Distinct) :=
    Check.forest_loaded (forest_of_loadList listed)
  cases v with
  | table fields =>
    rw [load] at loaded
    cases found : Fields.get? fields "components" with
    | none =>
      rw [found] at loaded
      cases loaded
    | some v =>
      rw [found] at loaded
      intro d member
      exact (ofList loaded d member).imp_right fun distinct whole => distinct (whole.2.get? found)
  | _ => exact ofList loaded

/-- A loaded tree that is dumped and loaded again is the same but for what is null exactly when
nothing in it stands under the second spelling of code that is absent. -/
theorem load_dump_iff {v : Value} {tree : List Component} (loaded : load v = .ok tree) :
    load (dump tree) = .ok (prunedAll tree) ↔ ∀ d ∈ preorderAll tree, d.props.Unshadowed := by
  have separate : ∀ d ∈ preorderAll tree, d.Separate := fun d member =>
    (load_loaded loaded d member).1
  have reload : load (dump tree) = loadList (dump tree) := rfl
  rw [reload, loadList]
  constructor
  · intro same
    refine Check.unshadowed_of_componentsFrom_dump separate (n := 0) ?_
    rw [dump, Check.forest] at same
    cases checked : Check.componentsFrom 0 (Dump.components tree) with
    | invalid issues =>
      rw [checked] at same
      cases same
    | valid cs =>
      rw [checked] at same
      rw [Except.ok.inj same]
  · intro clear
    have checked : Check.forest (dump tree) = .valid (prunedAll tree) :=
      Check.componentsFrom_dump separate clear 0
    rw [checked]

end Tree

end StaticSite
