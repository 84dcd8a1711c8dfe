import Mathlib.Data.List.Forall2
import StaticSite.Proofs.Tree.Reloading
import StaticSite.Site.Rule

/-! # The values of styles

The rules of a component print the values of its style maps. Those of the base have been checked:
they are texts and numbers, where a truth value counts as a number. Those of the variants are raw
data, so that all values are texts and numbers exactly when the ones given for variants are.
-/

namespace StaticSite

/-- Whether a value is a text or a number. -/
def Value.isTextOrNumber : Value → Bool
  | .text _ | .int _ | .float _ => true
  | _ => false

/-- A value as a base keeps it: a truth value counts as a number. -/
def Value.counted : Value → Value
  | .bool b => .int (if b then 1 else 0)
  | v => v

/-- The table under a key, an empty one when there is none. -/
def Fields.table (fields : Fields) (key : String) : Fields :=
  ((get? fields key).bind Value.fields?).getD []

theorem Fields.get?_filter {fields : Fields} {key : String} {keep : String × Value → Bool}
    (kept : ∀ v, keep (key, v) = true) : get? (fields.filter keep) key = get? fields key := by
  induction fields with
  | nil => rfl
  | cons field rest ih =>
    obtain ⟨k, v⟩ := field
    rw [List.filter_cons]
    by_cases same : key = k
    · subst same
      rw [if_pos (kept v), get?_cons, get?_cons, if_pos rfl, if_pos rfl]
    · split
      · rw [get?_cons, get?_cons, if_neg same, if_neg same, ih]
      · rw [get?_cons, if_neg same, ih]

/-! ## The tables of a tree -/

namespace Tree

mutual

/-- The tables of a component and everything below it in document order, as raw data. -/
def componentTables : Value → List Fields
  | .table fields => fields :: childTables fields
  | _ => []

/-- The tables below a component with the given fields. -/
def childTables : List (String × Value) → List Fields
  | [] => []
  | (key, v) :: rest => if key = "children" then listTables v else childTables rest

/-- The tables of a list of components. -/
def listTables : Value → List Fields
  | .list items => itemTables items
  | _ => []

/-- The tables of the members of a list. -/
def itemTables : List Value → List Fields
  | [] => []
  | v :: rest => componentTables v ++ itemTables rest

end

/-- The tables of the components of a tree in document order. -/
def tables : Value → List Fields
  | .table fields => ((Fields.get? fields "components").map listTables).getD []
  | v => listTables v

end Tree

namespace Site

/-! ## Style maps -/

/-- The style maps of a component: its base, and one map for each variant with a media query. -/
structure StyleMaps where
  base : Fields
  variants : List Fields
  deriving Repr

namespace StyleMaps

/-- The style maps in the table of a component. -/
def ofTable (fields : Fields) : StyleMaps where
  base := ((fields.table "styles").table "base").map fun (name, v) => (name, v.counted)
  variants := Rule.breakpoints.map fun b => (fields.table "styles").table b.1

/-- The values of style maps. -/
def values (m : StyleMaps) : List Value := (m.base ++ m.variants.flatten).map (·.2)

/-- The declarations that a style map is printed as. -/
def declarations (properties : Fields) : List Property.Declaration :=
  properties.map fun (name, v) => .ofRaw name v

/-- The rule of a base, none for an empty one. -/
def rule (id : String) (base : Fields) : List Text :=
  if (declarations base).isEmpty then []
  else [Text.unlines (Rule.declarationBlock [] (Rule.selector id) (declarations base))]

/-- The media query of a variant, none for an empty one. -/
def query (id width : String) (variant : Fields) : List Text :=
  if (declarations variant).isEmpty then []
  else
    [Text.unlines (Rule.blockLines [] ("@media (min-width: " ++ width ++ ")")
      (Rule.declarationBlock "  " (Rule.selector id) (declarations variant)))]

/-- The rules of style maps. -/
def text (id : String) (m : StyleMaps) : Text :=
  Text.unlines (rule id m.base ++
    (List.zipWith (fun (_, width) variant => query id width variant) Rule.breakpoints m.variants).flatten)

end StyleMaps

/-- Styles that hold what a table says: the base with its truth values counted, the variants as
they are. -/
structure StyledBy (styles : Styles) (fields : Fields) : Prop where
  base : styles.base.map (fun (name, s) => (name, s.toValue)) =
    (fields.table "base").map fun (name, v) => (name, v.counted)
  variants : ∀ key ≠ "base", styles.variant key = fields.table key

theorem isTextOrNumber_toValue (s : Scalar) : s.toValue.isTextOrNumber = true := by
  cases s with
  | text s => rfl
  | number q => cases q <;> rfl

end Site

/-! ## Checks -/

namespace Checked

variable {α : Type}

/-- A field with one spelling that passes its check was absent or passed it. -/
theorem field_single_eq_valid {name : String} {default a : α} {check : Value → Checked α}
    {fields : Fields} (checked : field [name] default check fields = valid a) :
    (Fields.get? fields name = none ∧ a = default) ∨
      ∃ v, Fields.get? fields name = some v ∧ check v = valid a := by
  cases found : Fields.get? fields name with
  | none =>
    rw [field_absent (List.forall_mem_singleton.mpr found)] at checked
    exact .inl ⟨rfl, (valid.inj checked).symm⟩
  | some v =>
    rw [field, lookup, List.findSome?_cons, found] at checked
    exact .inr ⟨v, rfl, under_eq_valid_iff.mp checked⟩

end Checked

namespace Check

open Site

theorem counted_of_scalar {v : Value} {s : Scalar} (checked : scalar v = .valid s) :
    s.toValue = v.counted := by
  cases v <;> cases checked <;> rfl

theorem counted_of_eachField {fields : Fields} {ps : Properties}
    (checked : Checked.eachField scalar fields = .valid ps) :
    ps.map (fun (name, s) => (name, s.toValue)) = fields.map fun (name, v) => (name, v.counted) := by
  induction fields generalizing ps with
  | nil =>
    obtain rfl := Checked.valid.inj checked
    rfl
  | cons field rest ih =>
    obtain ⟨name, v⟩ := field
    simp only [Checked.eachField, Checked.ap_eq_valid_iff, Checked.under_eq_valid_iff] at checked
    obtain ⟨_, others, ⟨_, s, mk, first, rfl⟩, later, rfl⟩ := checked
    obtain rfl := Checked.valid.inj mk
    rw [List.map_cons, List.map_cons, ih later]
    dsimp only
    rw [counted_of_scalar first]

theorem styledBy_of_styles {v : Value} {s : Styles} (checked : styles v = .valid s) :
    StyledBy s ((v.fields?).getD []) := by
  cases v with
  | table fields =>
    simp only [styles, Checked.model, Checked.ap_eq_valid_iff] at checked
    obtain ⟨_, variants, ⟨_, base, mk, given, rfl⟩, kept, rfl⟩ := checked
    obtain rfl := Checked.valid.inj mk
    obtain rfl := Checked.valid.inj kept
    constructor
    · rcases Checked.field_single_eq_valid given with ⟨absent, rfl⟩ | ⟨w, found, passed⟩
      · simp [Value.fields?, Fields.table, absent]
      · cases w with
        | table properties =>
          have counted := counted_of_eachField passed
          simpa [Value.fields?, Fields.table, found] using counted
        | _ => cases passed
    · intro key other
      have same : Fields.get? (remaining [["base"]] fields) key = Fields.get? fields key := by
        refine Fields.get?_filter fun w => ?_
        rw [List.filterMap_cons, List.filterMap_nil, Checked.lookup, List.findSome?_cons]
        cases Fields.get? fields "base" <;> simp [other]
      rw [Styles.variant, same]
      rfl
  | _ => cases checked

/-- The styles of a component are what its table says. -/
theorem styledBy_of_componentWith {fields : Fields} {children : Checked (List Component)}
    {c : Component} (checked : componentWith fields children = .valid c) :
    StyledBy c.styles (fields.table "styles") := by
  obtain ⟨-, given, -⟩ := componentWith_eq_valid checked
  rcases Checked.field_single_eq_valid given with ⟨absent, default⟩ | ⟨v, found, passed⟩
  · rw [default, Fields.table, absent]
    exact ⟨rfl, fun _ _ => rfl⟩
  · rw [Fields.table, found]
    exact styledBy_of_styles passed

mutual

/-- The styles of all components are what their tables say. -/
theorem styledBy_of_component : ∀ {v : Value} {c : Component}, component v = .valid c →
    List.Forall₂ (fun c fields => StyledBy c.styles (fields.table "styles"))
      (Tree.preorder c) (Tree.componentTables v)
  | .table fields, c, checked => by
    rw [component] at checked
    obtain ⟨-, -, below⟩ := componentWith_eq_valid checked
    rw [Tree.preorder_eq, Tree.componentTables]
    exact .cons (styledBy_of_componentWith checked) (styledBy_of_childrenField below)
  | .null, _, checked | .bool _, _, checked | .int _, _, checked | .float _, _, checked
  | .text _, _, checked | .list _, _, checked | .moment _, _, checked => by
    cases checked

theorem styledBy_of_childrenField : ∀ {fields : List (String × Value)} {cs : List Component},
    childrenField fields = .valid cs →
    List.Forall₂ (fun c fields => StyledBy c.styles (fields.table "styles"))
      (Tree.preorderAll cs) (Tree.childTables fields)
  | [], cs, checked => by
    rw [childrenField] at checked
    obtain rfl := Checked.valid.inj checked
    exact .nil
  | (key, v) :: rest, cs, checked => by
    rw [childrenField] at checked
    rw [Tree.childTables]
    split at checked
    · next named =>
      rw [if_pos named]
      exact styledBy_of_forest (Checked.under_eq_valid_iff.mp checked)
    · next other =>
      rw [if_neg other]
      exact styledBy_of_childrenField checked

theorem styledBy_of_forest : ∀ {v : Value} {cs : List Component}, forest v = .valid cs →
    List.Forall₂ (fun c fields => StyledBy c.styles (fields.table "styles"))
      (Tree.preorderAll cs) (Tree.listTables v)
  | .list items, cs, checked => by
    rw [forest] at checked
    exact styledBy_of_componentsFrom checked
  | .null, _, checked | .bool _, _, checked | .int _, _, checked | .float _, _, checked
  | .text _, _, checked | .table _, _, checked | .moment _, _, checked => by
    cases checked

theorem styledBy_of_componentsFrom : ∀ {items : List Value} {n : Nat} {cs : List Component},
    componentsFrom n items = .valid cs →
    List.Forall₂ (fun c fields => StyledBy c.styles (fields.table "styles"))
      (Tree.preorderAll cs) (Tree.itemTables items)
  | [], n, cs, checked => by
    rw [componentsFrom] at checked
    obtain rfl := Checked.valid.inj checked
    exact .nil
  | v :: rest, n, cs, checked => by
    rw [componentsFrom] at checked
    simp only [Checked.ap_eq_valid_iff, Checked.under_eq_valid_iff] at checked
    obtain ⟨_, others, ⟨_, c, mk, first, rfl⟩, later, rfl⟩ := checked
    obtain rfl := Checked.valid.inj mk
    rw [Tree.preorderAll, Tree.itemTables]
    exact List.rel_append (styledBy_of_component first) (styledBy_of_componentsFrom later)

end

end Check

namespace Site

theorem styledBy_of_load {v : Value} {tree : List Component} (loaded : Tree.load v = .ok tree) :
    List.Forall₂ (fun c fields => StyledBy c.styles (fields.table "styles"))
      (Tree.preorderAll tree) (Tree.tables v) := by
  have ofList {v : Value} (listed : Tree.loadList v = .ok tree) :
      List.Forall₂ (fun c fields => StyledBy c.styles (fields.table "styles"))
        (Tree.preorderAll tree) (Tree.listTables v) :=
    Check.styledBy_of_forest (Tree.forest_of_loadList listed)
  cases v with
  | table fields =>
    rw [Tree.load] at loaded
    rw [Tree.tables]
    cases found : Fields.get? fields "components" with
    | none =>
      rw [found] at loaded
      cases loaded
    | some v =>
      rw [found] at loaded
      exact ofList loaded
  | _ => exact ofList loaded

/-! ## Rules -/

theorem ofRaw_toValue (name : String) (s : Scalar) :
    Property.Declaration.ofRaw name s.toValue = .ofProperty name s :=
  congrArg (Property.Declaration.mk _) s.styleText_toValue

/-- The rules of a component print the style maps of its table. -/
theorem responsive_eq {c : Component} {fields : Fields}
    (styled : StyledBy c.styles (fields.table "styles")) :
    Rule.responsive c = (StyleMaps.ofTable fields).text c.id := by
  have base : Rule.baseDeclarations c = StyleMaps.declarations (StyleMaps.ofTable fields).base := by
    rw [StyleMaps.ofTable, ← styled.base, StyleMaps.declarations, List.map_map, Rule.baseDeclarations]
    exact List.map_congr_left fun p _ => (ofRaw_toValue p.1 p.2).symm
  have media : ∀ b ∈ Rule.breakpoints, Rule.media c b.1 b.2 =
      StyleMaps.query c.id b.2 ((fields.table "styles").table b.1) := by
    intro b known
    have other : ∀ b ∈ Rule.breakpoints, b.1 ≠ "base" := by decide
    rw [Rule.media, Rule.variantDeclarations, styled.variants b.1 (other b known)]
    rfl
  rw [Rule.responsive, Rule.base, base, StyleMaps.text, StyleMaps.ofTable, List.zipWith_map_right,
    List.zipWith_self, List.flatMap_def, List.map_congr_left media]
  rfl

/-- The values of a base are texts and numbers. -/
theorem isTextOrNumber_base {c : Component} {fields : Fields}
    (styled : StyledBy c.styles (fields.table "styles")) :
    ∀ p ∈ (StyleMaps.ofTable fields).base, p.2.isTextOrNumber = true := by
  rw [StyleMaps.ofTable, ← styled.base]
  intro p member
  obtain ⟨q, -, rfl⟩ := List.mem_map.mp member
  exact isTextOrNumber_toValue q.2

/-- The rules of every component of a loaded tree print the values of the style maps in its data, and
no others. These are all texts and numbers exactly when the ones that are given for variants are. -/
theorem printed_values {v : Value} {tree : List Component} (loaded : Tree.load v = .ok tree) :
    List.Forall₂ (fun c fields =>
        Rule.responsive c = (StyleMaps.ofTable fields).text c.id ∧
        ((∀ w ∈ (StyleMaps.ofTable fields).values, w.isTextOrNumber = true) ↔
          ∀ variant ∈ (StyleMaps.ofTable fields).variants, ∀ p ∈ variant, p.2.isTextOrNumber = true))
      (Tree.walk tree) (Tree.tables v) := by
  rw [Tree.walk_eq_preorderAll]
  refine (styledBy_of_load loaded).imp fun c fields styled => ⟨responsive_eq styled, ?_⟩
  simp only [StyleMaps.values, List.forall_mem_map, List.forall_mem_append, List.forall_mem_flatten]
  exact and_iff_right (isTextOrNumber_base styled)

/-- A component with a variant that gives a property a value. -/
def narrowInput (value : Value) : Value :=
  .list [.table [("id", .text "a"), ("type", .text "text"),
    ("styles", .table [("base", .table [("color", .bool true)]), ("sm", .table [("color", value)])])]]

theorem printed_values_number : ∃ c fields, Tree.load (narrowInput (.int 0)) = .ok [c] ∧
    Tree.tables (narrowInput (.int 0)) = [fields] ∧
    Rule.responsive c = (StyleMaps.ofTable fields).text c.id ∧
    ∀ w ∈ (StyleMaps.ofTable fields).values, w.isTextOrNumber = true := by
  obtain ⟨c, loaded, single⟩ : ∃ c, Tree.load (narrowInput (.int 0)) = .ok [c] ∧
      Tree.preorderAll [c] = [c] := ⟨_, rfl, rfl⟩
  have printed := printed_values loaded
  rw [Tree.walk_eq_preorderAll, single] at printed
  obtain ⟨rules, values⟩ := (List.forall₂_cons.mp printed).1
  exact ⟨c, _, loaded, rfl, rules, values.mpr (by decide)⟩

/-- A tree that is loaded, with a value in its rules that is neither a text nor a number. -/
theorem responsive_nullVariant : ∃ c, Tree.load (narrowInput .null) = .ok [c] ∧
    Rule.responsive c = ("#a \x7b\n  color: 1;\n\x7d\n" ++
      "@media (min-width: 640px) \x7b\n  #a \x7b\n    color: None;\n  \x7d\n\x7d" : Text) :=
  ⟨_, rfl, by decide⟩

end Site

end StaticSite
