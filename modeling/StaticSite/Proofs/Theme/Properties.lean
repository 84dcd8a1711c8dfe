import Mathlib.Data.List.Nodup
import StaticSite.Proofs.Markup.Attributes
import StaticSite.Site.Stylesheet
import StaticSite.Theme.Store

/-! # The custom properties of a theme

The tokens of all groups become custom properties of one rule, under names that are made from
their keys. No key of a group, whatever it says, makes a name that another token has too: names of
different groups begin differently, and within a group the key is what follows. So nothing is set
twice, and every token has a line of its own in the stylesheet.
-/

namespace StaticSite.Theme

/-- Tokens with no two keys of a group that are written alike. -/
def Tokens.Distinct (tokens : Tokens) : Prop := ∀ g, (Fields.keys (tokens g).named).Nodup

/-- Keys that are texts are written alike only if they are one key. -/
theorem Entries.nodup_named {entries : Entries}
    (apart : (Fields.keys entries).Pairwise fun k j => (k == j) = false)
    (texts : ∀ k ∈ Fields.keys entries, ∃ s, k = .ofText s) : (Fields.keys entries.named).Nodup := by
  have names : Fields.keys entries.named = (Fields.keys entries).map Key.name := by
    simp [Fields.keys, Entries.named, Function.comp_def]
  rw [names, List.Nodup, List.pairwise_map]
  refine apart.imp_of_mem fun {k j} first second other same => ?_
  obtain ⟨s, rfl⟩ := texts k first
  obtain ⟨t, rfl⟩ := texts j second
  rw [Key.name_ofText, Key.name_ofText] at same
  rw [same, BEq.rfl] at other
  cases other

/-- The group that the name of a custom property belongs to, by its first four characters. -/
def Group.ofProperty? (name : String) : Option Group :=
  [("--co".toList, colors), ("--fo".toList, typography), ("--li".toList, typography),
    ("--sp".toList, spacing), ("--ra".toList, borderRadius), ("--sh".toList, shadows)].lookup
    (name.toList.take 4)

namespace Store

variable {tokens : Tokens}

/-! ## Names within a group -/

theorem keys_property (start : String) (fields : Fields) :
    Fields.keys (fields.map (property start)) = (Fields.keys fields).map (start ++ ·) := by
  simp [Fields.keys, property, Function.comp_def]

theorem keys_textProperty (start : String) (fields : Fields) :
    Fields.keys (fields.map (textProperty start)) = (Fields.keys fields).map (start ++ ·) := by
  simp [Fields.keys, textProperty, Function.comp_def]

/-- Typography has some of its fixed names, in their order. -/
theorem sublist_typography (tokens : Tokens) :
    (Fields.keys (groupProperties tokens .typography)).Sublist (typographyNames.map (·.1)) := by
  simp only [groupProperties]
  induction typographyNames with
  | nil => exact .slnil
  | cons entry rest ih =>
    obtain ⟨name, key⟩ := entry
    rw [List.filterMap_cons]
    cases (tokens .typography).lookup (.ofText key) with
    | none => exact ih.cons name
    | some v => exact ih.cons_cons name

theorem nodup_map_append {names : List String} (distinct : names.Nodup) (start : String) :
    (names.map (start ++ ·)).Nodup :=
  distinct.map fun _ _ same => String.append_right_inj start |>.mp same

theorem nodup_groupProperties (distinct : tokens.Distinct) (g : Group) :
    (Fields.keys (groupProperties tokens g)).Nodup := by
  cases g with
  | colors => exact keys_property _ _ ▸ nodup_map_append (distinct .colors) _
  | typography => exact (sublist_typography tokens).nodup (by decide)
  | spacing =>
    have fewer : (Fields.keys (Entries.named
        ((tokens .spacing).filter (·.1 != .ofText "unit")))).Sublist
        (Fields.keys (tokens .spacing).named) := (List.filter_sublist.map _).map _
    exact keys_textProperty _ _ ▸ nodup_map_append (fewer.nodup (distinct .spacing)) _
  | borderRadius => exact keys_property _ _ ▸ nodup_map_append (distinct .borderRadius) _
  | shadows => exact keys_property _ _ ▸ nodup_map_append (distinct .shadows) _

/-! ## Names of different groups -/

theorem ofProperty?_of_mem_map {start : String} (long : 4 ≤ start.toList.length)
    {names : List String} {name : String} (member : name ∈ names.map (start ++ ·)) :
    Group.ofProperty? name = Group.ofProperty? start := by
  obtain ⟨key, _, rfl⟩ := List.mem_map.mp member
  rw [Group.ofProperty?, String.toList_append, List.take_append_of_le_length long]
  rfl

/-- The name of a custom property tells its group, whatever the keys are. -/
theorem ofProperty?_of_mem {g : Group} {name : String}
    (member : name ∈ Fields.keys (groupProperties tokens g)) : Group.ofProperty? name = some g := by
  cases g with
  | colors =>
    rw [groupProperties, keys_property] at member
    exact ofProperty?_of_mem_map (by decide) member
  | typography =>
    have fixed : ∀ n ∈ typographyNames.map (·.1), Group.ofProperty? n = some .typography := by
      decide
    exact fixed name ((sublist_typography tokens).subset member)
  | spacing =>
    rw [groupProperties, keys_textProperty] at member
    exact ofProperty?_of_mem_map (by decide) member
  | borderRadius =>
    rw [groupProperties, keys_property] at member
    exact ofProperty?_of_mem_map (by decide) member
  | shadows =>
    rw [groupProperties, keys_property] at member
    exact ofProperty?_of_mem_map (by decide) member

theorem disjoint_groupProperties {g h : Group} (other : g ≠ h) :
    (Fields.keys (groupProperties tokens g)).Disjoint (Fields.keys (groupProperties tokens h)) :=
  fun _ here there =>
    other (Option.some.inj ((ofProperty?_of_mem here).symm.trans (ofProperty?_of_mem there)))

theorem nodup_allProperties (distinct : tokens.Distinct) :
    (Fields.keys (Group.all.flatMap (groupProperties tokens))).Nodup := by
  rw [Fields.keys, List.map_flatMap]
  refine List.nodup_flatMap.mpr ⟨fun g _ => nodup_groupProperties distinct g, ?_⟩
  have apart : Group.all.Nodup := by decide
  exact apart.imp fun other => disjoint_groupProperties other

/-- Nothing is set twice, so the properties are those of the groups, one group after the other. -/
theorem properties_eq_flatMap {store : Store} (distinct : store.tokens.Distinct) :
    store.properties = Group.all.flatMap (groupProperties store.tokens) :=
  Fields.putAll_of_nodup (by simpa using nodup_allProperties distinct)

/-! ## All properties -/

/-- A token as typography and spacing print it: a number by its digits, an integral float without a
point, and any other token in its plain form, which for a boolean has a capital. -/
def printed : Value → Value
  | .int n => .text (String.ofList (Text.ofInt n))
  | .float x =>
      match (Binary.ofFloat x).toInt? with
      | some n => .text (String.ofList (Text.ofInt n))
      | none => .text (String.ofList (Number.ofFloat x))
  | v => .text (String.ofList v.plain)

theorem text_tokenText (v : Value) : Value.text (String.ofList (tokenText v)) = printed v := by
  cases v with
  | float x =>
    cases integral : (Binary.ofFloat x).toInt? <;>
      simp [tokenText, Value.styleText, Number.plainFloat, printed, integral]
  | _ => rfl

theorem length_typography (tokens : Tokens) :
    (groupProperties tokens .typography).length =
      typographyNames.countP fun (_, key) =>
        ((tokens .typography).lookup (.ofText key)).isSome := by
  simp only [groupProperties]
  induction typographyNames with
  | nil => rfl
  | cons entry rest ih =>
    obtain ⟨name, key⟩ := entry
    cases found : (tokens .typography).lookup (.ofText key) with
    | none => simp [found, ih]
    | some v => simp [found, ih]

/-- The lines of a theme in a stylesheet: one for each custom property, in their order. -/
theorem themeSection_propertyTexts (store : Store) :
    Site.themeSection store.propertyTexts = ":root \x7b\n" ++
      Text.unlines (store.properties.map fun (name, v) =>
        "  " ++ name ++ ": " ++ v.plain ++ ";") ++ "\n\x7d" := by
  have lines : (store.propertyTexts.map fun (name, value) =>
      ("  " ++ name ++ ": " ++ value ++ ";" : Text)) =
      store.properties.map fun (name, v) => "  " ++ name ++ ": " ++ v.plain ++ ";" := by
    simp [propertyTexts, Function.comp_def]
  rw [Site.themeSection, lines]
  simp [Rule.blockLines, Text.unlines, Text.joinWith]

/-- No token shadows another. Where no two keys of a group are written alike, the custom properties
of a theme have different names; they are one for each colour, one for each token that typography
has a fixed name for, one for each spacing other than the unit, one for each radius and one for each
shadow, in this order, each with the value of its own token, printed in typography and spacing and
as it is elsewhere; and the stylesheet has a line for each of them. -/
theorem properties_apart (store : Store) (distinct : store.tokens.Distinct) :
    (Fields.keys store.properties).Nodup ∧
    store.properties =
      (store.tokens .colors).map (fun (k, v) => ("--color-" ++ k.name, v)) ++
      typographyNames.filterMap (fun (name, key) =>
        ((store.tokens .typography).lookup (.ofText key)).map fun v => (name, printed v)) ++
      ((store.tokens .spacing).filter (·.1 != .ofText "unit")).map (fun (k, v) =>
        ("--spacing-" ++ k.name, printed v)) ++
      (store.tokens .borderRadius).map (fun (k, v) => ("--radius-" ++ k.name, v)) ++
      (store.tokens .shadows).map (fun (k, v) => ("--shadow-" ++ k.name, v)) ∧
    store.properties.length =
      (store.tokens .colors).length +
      (typographyNames.countP fun (_, key) =>
        ((store.tokens .typography).lookup (.ofText key)).isSome) +
      ((store.tokens .spacing).countP fun (k, _) => k != .ofText "unit") +
      (store.tokens .borderRadius).length +
      (store.tokens .shadows).length ∧
    Site.themeSection store.propertyTexts = ":root \x7b\n" ++
      Text.unlines (store.properties.map fun (name, v) =>
        "  " ++ name ++ ": " ++ v.plain ++ ";") ++ "\n\x7d" := by
  have all := properties_eq_flatMap distinct
  refine ⟨all ▸ nodup_allProperties distinct, ?_, ?_, themeSection_propertyTexts store⟩
  · simp only [all, Group.all, List.flatMap_cons, List.flatMap_nil, List.append_nil,
      List.append_assoc, groupProperties, Entries.named, List.map_map, ← text_tokenText]
    rfl
  · simp only [all, Group.all, List.flatMap_cons, List.flatMap_nil, List.append_nil,
      List.length_append, length_typography]
    simp only [groupProperties, Entries.named, List.length_map, List.countP_eq_length_filter]
    omega

/-- A theme whose keys look like parts of other names. -/
def crossed : Store where
  name := "custom"
  tokens
    | .colors => [("unit", .text "#fff"), ("x", .null), ("", .text "#000")]
    | .typography => [("fontWeightBold", .bool true), ("fontSize", .int 3), ("lineHeight", .text "2"),
        ("fontFamily", .int (-1)), ("fontFamilyHeading", .null), ("fontWeightMedium", .int 5),
        ("headingLineHeight", .text "3"), ("baseFontSize", .text ""), ("fontWeightNormal", .int 4)]
    | .spacing => [("-shadow-x", .int 2), ("unit", .int 8), ("line-height", .text "1px"),
        ("md", .bool true)]
    | .borderRadius => [("x", .int 1), ("unit", .int 2)]
    | .shadows => [("x", .bool true)]

theorem properties_apart_crossed :
    crossed.tokens.Distinct ∧ crossed.properties =
      [("--color-unit", .text "#fff"), ("--color-x", .null), ("--color-", .text "#000"),
        ("--font-family", .text "-1"), ("--font-family-heading", .text "None"),
        ("--font-size-base", .text ""), ("--line-height", .text "2"),
        ("--line-height-heading", .text "3"), ("--font-weight-normal", .text "4"),
        ("--font-weight-medium", .text "5"), ("--font-weight-bold", .text "True"),
        ("--spacing--shadow-x", .text "2"), ("--spacing-line-height", .text "1px"),
        ("--spacing-md", .text "True"), ("--radius-x", .int 1), ("--radius-unit", .int 2),
        ("--shadow-x", .bool true)] := by
  have distinct : crossed.tokens.Distinct := fun g => by cases g <;> decide
  refine ⟨distinct, ?_⟩
  rw [(properties_apart crossed distinct).2.1]
  rfl

end Store

end StaticSite.Theme
