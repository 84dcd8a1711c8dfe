import Mathlib.Data.List.Flatten
import StaticSite.Proofs.Site.Block
import StaticSite.Proofs.Site.Stylesheet

/-! # Which rules components have

Among the rules of the components those with a bare id for a selector are the base rules: there is
one for each component of a known kind that has base styles, in document order. A media query holds
one rule with the bare id of its component, and those of a component are in the order of their
widths. The fixed rules of a kind say more than the id.
-/

namespace StaticSite

open Stylesheet Property

/-! ## Kinds of entries -/

namespace Stylesheet

/-- Whether a prelude is a number sign and a word. -/
def isBareId : Text → Bool
  | '#' :: name => name.all isWordPart
  | _ => false

namespace Entry

/-- Whether an entry is a block whose selector is a bare id. -/
def isIdRule : Entry → Bool
  | .block start _ => isBareId start
  | _ => false

/-- Whether an entry is a media query. -/
def isMedia : Entry → Bool
  | .block start _ => Text.startsWith "@media" start
  | _ => false

/-- The number in the prelude of a media query. -/
def minWidth : Entry → Nat
  | .block start _ => Text.decimal start
  | _ => 0

end Entry

end Stylesheet

/-- A component whose id and property names are words and whose style values make one declaration
each. -/
structure Component.Styled (c : Component) : Prop where
  id : Word c.id.toList
  base : ∀ p ∈ c.styles.base, Word p.1.toList ∧ p.2.Single
  variants : ∀ b ∈ Rule.breakpoints, ∀ p ∈ c.styles.variant b.1, Word p.1.toList ∧ p.2.Single

instance (c : Component) : Decidable c.Styled :=
  decidable_of_iff (Word c.id.toList ∧ (∀ p ∈ c.styles.base, Word p.1.toList ∧ p.2.Single) ∧
      ∀ b ∈ Rule.breakpoints, ∀ p ∈ c.styles.variant b.1, Word p.1.toList ∧ p.2.Single)
    ⟨fun all => ⟨all.1, all.2.1, all.2.2⟩, fun styled => ⟨styled.id, styled.base, styled.variants⟩⟩

namespace Rule

/-! ## Selectors -/

theorem visible_selector {id : String} (word : Word id.toList) :
    ∀ c ∈ selector id, isBlank c = false :=
  List.forall_mem_cons.mpr ⟨by decide, word.isBlank_eq_false⟩

/-- A selector with something behind it is read as it stands where that is. -/
theorem phrase_selector {id : String} (word : Word id.toList) {part : Text}
    (tight : (phraseFrom false (lexemes part)).rdropWhile isBlank = part) :
    phrase (lexemes (selector id ++ part)) = selector id ++ part := by
  rw [(Site.plain_selector word.plain).lexemes_append,
    phrase_visible (visible_selector word) (by simp [selector]), tight]

theorem phrase_id {id : String} (word : Word id.toList) :
    phrase (lexemes (selector id)) = selector id := by
  have read := @phrase_selector _ word [] (by decide)
  rwa [List.append_nil] at read

theorem isBareId_selector {id : String} (word : Word id.toList) : isBareId (selector id) = true :=
  List.all_eq_true.mpr word

/-- The fixed rules of kinds are read as they stand, and none has a bare id for a selector. -/
theorem fixed_tight (w : Widget) : ∀ rule ∈ fixed w,
    (phraseFrom false (lexemes rule.part.toList)).rdropWhile isBlank = rule.part.toList ∧
      ∃ c ∈ rule.part.toList, isWordPart c = false := by
  cases w
  all_goals
    simp only [fixed, List.forall_mem_cons]
    -- Literals become lists of characters first, which the kernel is slow to make of them.
    repeat rw [String.toList_ofList]
    decide +kernel

theorem isBareId_fixed {w : Widget} {rule : Fixed} (listed : rule ∈ fixed w) (id : String) :
    isBareId (selector id ++ rule.part) = false := by
  obtain ⟨-, c, inside, other⟩ := fixed_tight w rule listed
  refine List.all_eq_false.mpr ⟨c, List.mem_append_right _ inside, by simp [other]⟩

theorem media_tight : ∀ b ∈ breakpoints,
    phrase (lexemes ("@media (min-width: " ++ b.2 ++ ")")) = "@media (min-width: " ++ b.2 ++ ")" := by
  decide

/-! ## The entries of one component -/

/-- The entries of a component's base rule. -/
def baseEntries (c : Component) : List Entry :=
  if (baseDeclarations c).isEmpty then []
  else [.block (selector c.id) (((baseDeclarations c).map (·.line "  ")).flatMap items)]

/-- The tokens of a component's rule in a media query. -/
def innerItems (c : Component) (variant : String) : List Token :=
  ((variantDeclarations c variant).map (·.line "    ")).flatMap items

/-- The entries of a media query of a component. -/
def mediaEntries (c : Component) (b : String × String) : List Entry :=
  if (variantDeclarations c b.1).isEmpty then []
  else [.block ("@media (min-width: " ++ b.2 ++ ")")
    (.opening (selector c.id) :: (innerItems c b.1 ++ [.closing]))]

/-- The entry of a fixed rule. -/
def Fixed.entry (id : String) (rule : Fixed) : Entry :=
  .block (selector id ++ rule.part)
    ((rule.declarations.map fun (d : String) => ("  " ++ d ++ ";" : Text)).flatMap items)

theorem entries_fixed {id : String} (word : Word id.toList) {w : Widget} {rule : Fixed}
    (listed : rule ∈ fixed w) :
    Standalone (rule.text id) ∧ entries (items (rule.text id)) = [rule.entry id] := by
  have prelude := prelude_selector word.plain (fixed_inert w rule listed).1
  have lines := balanced_fixedLines listed
  refine ⟨(balanced_blockLines .nil prelude lines).unlines, ?_⟩
  rw [Fixed.text, entries_blockLines prelude lines,
    phrase_selector word (fixed_tight w rule listed).1]
  rfl

section Component

variable {c : Component} (styled : c.Styled)
include styled

theorem clear_base : ∀ d ∈ baseDeclarations c, d.Clear := by
  intro d member
  obtain ⟨p, listed, rfl⟩ := List.mem_map.mp member
  obtain ⟨name, value⟩ := styled.base p listed
  exact ⟨word_styleName name, value.lone⟩

theorem clear_variant {b : String × String} (known : b ∈ breakpoints) :
    ∀ d ∈ variantDeclarations c b.1, d.Clear := by
  intro d member
  obtain ⟨p, listed, rfl⟩ := List.mem_map.mp member
  obtain ⟨name, value⟩ := styled.variants b known p listed
  exact ⟨word_styleName name, value.lone⟩

theorem neat_of_styled : Neat c :=
  ⟨styled.id.plain, fun d listed => (clear_base styled d listed).inline,
    fun _ known d listed => (clear_variant styled known d listed).inline⟩

theorem entries_base : (base c).flatMap (fun t => entries (items t)) = baseEntries c := by
  unfold base baseEntries
  dsimp only
  split
  · rfl
  · rw [List.flatMap_singleton, declarationBlock, entries_blockLines (prelude_id styled.id.plain)
      (balanced_lines (by decide) (neat_of_styled styled).base), phrase_id styled.id]
    rfl

theorem entries_media {b : String × String} (known : b ∈ breakpoints) :
    (media c b.1 b.2).flatMap (fun t => entries (items t)) = mediaEntries c b := by
  have inner := @balanced_declarationBlock "  " _ (by decide) (prelude_id styled.id.plain) _
    ((neat_of_styled styled).variants b known)
  unfold media mediaEntries
  dsimp only
  split
  · rfl
  · rw [List.flatMap_singleton, entries_blockLines (prelude_media b known) inner,
      media_tight b known, declarationBlock, items_blockLines (by decide)
      (prelude_id styled.id.plain), phrase_id styled.id]
    rfl

theorem entries_responsive :
    entries (items (responsive c)) = baseEntries c ++ breakpoints.flatMap (mediaEntries c) := by
  have standalone : ∀ t ∈ base c ++ breakpoints.flatMap fun b => media c b.1 b.2, Standalone t := by
    intro t member
    rcases List.mem_append.mp member with inside | behind
    · exact standalone_base (neat_of_styled styled) t inside
    · obtain ⟨b, known, inside⟩ := List.mem_flatMap.mp behind
      exact standalone_media (neat_of_styled styled) known t inside
  have read := @entries_joinWith ['\n'] (by decide) _ standalone
  rw [List.flatMap_append, entries_base styled, List.flatMap_assoc] at read
  rw [← List.flatMap_congr fun b known => entries_media styled known]
  exact read

theorem entries_component (w : Widget) :
    entries (items (component w c)) = baseEntries c ++ breakpoints.flatMap (mediaEntries c) ++
      (fixed w).map (·.entry c.id) := by
  have neat := neat_of_styled styled
  have own : ∀ t ∈ if (responsive c).isEmpty then [] else [responsive c], Standalone t := by
    intro t member
    split at member
    · cases member
    · rw [List.mem_singleton.mp member]
      exact standalone_responsive neat
  have other : ∀ t ∈ (fixed w).map (Fixed.text c.id), Standalone t := by
    intro t member
    obtain ⟨rule, listed, rfl⟩ := List.mem_map.mp member
    exact standalone_fixed neat.id listed
  have read := @entries_joinWith ['\n'] (by decide) _
    (List.forall_mem_append.mpr ⟨own, other⟩)
  have first : (if (responsive c).isEmpty then [] else [responsive c]).flatMap
      (fun t => entries (items t)) = entries (items (responsive c)) := by
    split
    · next empty =>
      rw [List.isEmpty_iff.mp empty]
      rfl
    · exact List.flatMap_singleton ..
  have last : ((fixed w).map (Fixed.text c.id)).flatMap (fun t => entries (items t)) =
      (fixed w).map (·.entry c.id) := by
    rw [List.flatMap_map, List.map_eq_flatMap]
    exact List.flatMap_congr fun rule listed => (entries_fixed styled.id listed).2
  rw [List.flatMap_append, first, last, entries_responsive styled] at read
  exact read

end Component

end Rule

/-! ## The rules of a tree -/

namespace Site

/-- The components of a tree whose kind is known, in document order. -/
def knownComponents (tree : List Component) : List Component :=
  (Tree.preorderAll tree).filter fun c => (Widget.ofType? c.type).isSome

/-- The entries of a component, none where its kind is not known. -/
def componentEntries (c : Component) : List Entry :=
  match Widget.ofType? c.type with
  | some w => Rule.baseEntries c ++ Rule.breakpoints.flatMap (Rule.mediaEntries c) ++
      (Rule.fixed w).map (·.entry c.id)
  | none => []

theorem flatMap_filter_of_nil {α β : Type} {keep : α → Bool} {f : α → List β}
    (none : ∀ x, keep x = false → f x = []) (xs : List α) :
    (xs.filter keep).flatMap f = xs.flatMap f := by
  induction xs with
  | nil => rfl
  | cons x rest ih =>
    rw [List.filter_cons, List.flatMap_cons]
    split
    · rw [List.flatMap_cons, ih]
    · next dropped => rw [ih, none x (by simpa using dropped), List.nil_append]

theorem entries_componentSection {tree : List Component}
    (styled : ∀ c ∈ Tree.preorderAll tree, c.Styled) :
    entries (items (componentSection tree)) = (knownComponents tree).flatMap componentEntries := by
  rw [← Tree.walk_eq_preorderAll] at styled
  have read := @entries_joinWith ['\n', '\n'] (by decide) _
    (standalone_componentRules fun c listed => Rule.neat_of_styled (styled c listed))
  have unknown (c : Component) (other : (Widget.ofType? c.type).isSome = false) :
      componentEntries c = [] := by
    have none : Widget.ofType? c.type = none := by simpa using other
    rw [componentEntries, none]
  refine read.trans ?_
  rw [knownComponents, flatMap_filter_of_nil unknown, componentRules, List.filterMap_eq_flatMap_toList,
    List.flatMap_assoc, ← Tree.walk_eq_preorderAll]
  refine List.flatMap_congr fun c listed => ?_
  unfold componentEntries
  cases kind : Widget.ofType? c.type with
  | none => rfl
  | some w =>
    have own := Rule.entries_component (styled c listed) w
    dsimp only [Option.bind_some]
    rw [← own]
    split
    · next empty =>
      rw [List.isEmpty_iff.mp empty]
      rfl
    · simp

/-! ## Which rules there are -/

/-- The block of a component's base styles. -/
def BaseRule (c : Component) (e : Entry) : Prop :=
  ∃ body, e = .block ('#' :: c.id.toList) body ∧
    Declares (c.styles.base.map fun (name, value) => .ofProperty name value) body

/-- The media query of a variant of a component's styles: one rule with the component's id. -/
def MediaRule (c : Component) (b : String × String) (e : Entry) : Prop :=
  ∃ body inner, e = .block ("@media (min-width: " ++ b.2 ++ ")") body ∧
    entries body = [.block ('#' :: c.id.toList) inner] ∧
    Declares ((c.styles.variant b.1).map fun (name, value) => .ofRaw name value) inner

/-- The media queries of a component: one for each variant that has any styles, by ascending
width. -/
structure MediaRules (c : Component) (es : List Entry) : Prop where
  each : List.Forall₂ (MediaRule c)
    (Rule.breakpoints.filter fun b => !(c.styles.variant b.1).isEmpty) es
  ascending : (es.map Entry.minWidth).Pairwise (· < ·)

/-- Elements that are kept give one result each, and the others give none. -/
theorem forall₂_filter_flatMap {α β : Type} {R : α → β → Prop} {keep : α → Bool} {f : α → List β}
    {xs : List α} (kept : ∀ x ∈ xs, keep x = true → ∃ y, f x = [y] ∧ R x y)
    (dropped : ∀ x ∈ xs, keep x = false → f x = []) :
    List.Forall₂ R (xs.filter keep) (xs.flatMap f) := by
  induction xs with
  | nil => exact .nil
  | cons x rest ih =>
    obtain ⟨here, others⟩ := List.forall_mem_cons.mp kept
    obtain ⟨gone, more⟩ := List.forall_mem_cons.mp dropped
    have later := ih others more
    rw [List.flatMap_cons]
    cases stays : keep x with
    | true =>
      obtain ⟨y, made, related⟩ := here stays
      rw [List.filter_cons_of_pos stays, made]
      exact .cons related later
    | false =>
      rw [List.filter_cons_of_neg (by simp [stays]), gone stays]
      exact later

theorem forall₂_flatMap {α β : Type} {R : α → β → Prop} {f : α → List β} {xs : List α}
    (each : ∀ x ∈ xs, ∃ y, f x = [y] ∧ R x y) : List.Forall₂ R xs (xs.flatMap f) := by
  have kept := @forall₂_filter_flatMap α β R (fun _ => true) f xs
    (fun x member _ => each x member) (by simp)
  rwa [List.filter_true] at kept

section Styled

variable {c : Component} (styled : c.Styled)
include styled

/-- Every entry of a component is its base rule, a media query of its own, or a fixed rule. -/
theorem filter_componentEntries (known : (Widget.ofType? c.type).isSome = true) :
    (componentEntries c).filter Entry.isIdRule = Rule.baseEntries c ∧
      (componentEntries c).filter Entry.isMedia =
        Rule.breakpoints.flatMap (Rule.mediaEntries c) := by
  obtain ⟨w, kind⟩ := Option.isSome_iff_exists.mp known
  have bare := Rule.isBareId_selector styled.id
  have base : ∀ e ∈ Rule.baseEntries c, e.isIdRule = true ∧ e.isMedia = false := by
    intro e member
    rw [Rule.baseEntries] at member
    split at member
    · cases member
    · rw [List.mem_singleton.mp member]
      exact ⟨bare, rfl⟩
  have media : ∀ e ∈ Rule.breakpoints.flatMap (Rule.mediaEntries c),
      e.isIdRule = false ∧ e.isMedia = true := by
    intro e member
    obtain ⟨b, -, inside⟩ := List.mem_flatMap.mp member
    rw [Rule.mediaEntries] at inside
    split at inside
    · cases inside
    · rw [List.mem_singleton.mp inside]
      exact ⟨rfl, rfl⟩
  have fixed : ∀ e ∈ (Rule.fixed w).map (·.entry c.id), e.isIdRule = false ∧ e.isMedia = false := by
    intro e member
    obtain ⟨rule, listed, rfl⟩ := List.mem_map.mp member
    exact ⟨Rule.isBareId_fixed listed c.id, rfl⟩
  have none {es : List Entry} {keep : Entry → Bool} (other : ∀ e ∈ es, keep e = false) :
      es.filter keep = [] := List.filter_eq_nil_iff.mpr fun e member => by simp [other e member]
  rw [componentEntries, kind]
  dsimp only
  rw [List.filter_append, List.filter_append, List.filter_append, List.filter_append]
  constructor
  · rw [List.filter_eq_self.mpr fun e member => (base e member).1,
      none fun e member => (media e member).1, none fun e member => (fixed e member).1,
      List.append_nil, List.append_nil]
  · rw [List.filter_eq_self.mpr fun e member => (media e member).2,
      none fun e member => (base e member).2, none fun e member => (fixed e member).2,
      List.append_nil, List.nil_append]

theorem baseRule (some : c.styles.base.isEmpty = false) :
    ∃ e, Rule.baseEntries c = [e] ∧ BaseRule c e := by
  have declared : (Rule.baseDeclarations c).isEmpty = false := by
    rwa [Rule.baseDeclarations, List.isEmpty_map]
  refine ⟨_, if_neg (by simp [declared]), _, rfl, ?_⟩
  exact Rule.declares_lines (Rule.clear_base styled) (by decide)

theorem mediaRule {b : String × String} (known : b ∈ Rule.breakpoints)
    (some : (c.styles.variant b.1).isEmpty = false) :
    ∃ e, Rule.mediaEntries c b = [e] ∧ MediaRule c b e := by
  have declared : (Rule.variantDeclarations c b.1).isEmpty = false := by
    rwa [Rule.variantDeclarations, List.isEmpty_map]
  have clear := Rule.clear_variant styled known
  have even := @Rule.balanced_lines "    " (by decide) _ fun d listed =>
    (clear d listed).inline
  have nested := even.nested
  rw [← balanced_eq_nested] at nested
  refine ⟨_, if_neg (by simp [declared]), _, _, rfl, entries_block nested _, ?_⟩
  exact Rule.declares_lines clear (by decide)

/-- The media queries of a component are those of its variants. -/
theorem mediaRules : MediaRules c (Rule.breakpoints.flatMap (Rule.mediaEntries c)) := by
  constructor
  · refine forall₂_filter_flatMap (fun b known stays => ?_) fun b known gone => ?_
    · exact mediaRule styled known (by simpa using stays)
    · refine if_pos ?_
      rw [Rule.variantDeclarations, List.isEmpty_map]
      simpa using gone
  · let width := fun b : String × String => Text.decimal ("@media (min-width: " ++ b.2 ++ ")")
    have ascending : (Rule.breakpoints.map width).Pairwise (· < ·) := by decide
    refine ascending.sublist ?_
    rw [List.map_flatMap, List.map_eq_flatMap]
    refine List.Sublist.flatMap_right _ fun b known => ?_
    rw [Rule.mediaEntries]
    split
    · exact List.nil_sublist _
    · exact List.Sublist.refl _

end Styled

/-- Where ids and names are words and values make one declaration each, the rules of the components
whose selector is a bare id are those of the base styles: one for each component of a known kind
that has any, in document order. A media query holds one rule with the bare id of its component, and
those of a component are in the order of their widths. No fixed rule has a bare id for a selector. -/
theorem componentSection_rules {tree : List Component}
    (styled : ∀ c ∈ Tree.preorderAll tree, c.Styled) :
    (tokens (componentSection tree)).fault = none ∧
      List.Forall₂ BaseRule ((knownComponents tree).filter fun c => !c.styles.base.isEmpty)
        ((entries (items (componentSection tree))).filter Entry.isIdRule) ∧
      (∃ media, (entries (items (componentSection tree))).filter Entry.isMedia = media.flatten ∧
        List.Forall₂ MediaRules (knownComponents tree) media) ∧
      ∀ w, ∀ rule ∈ Rule.fixed w, ∀ id : String, Word id.toList → ∃ body,
        entries (items (rule.text id)) = [.block ('#' :: (id.toList ++ rule.part)) body] ∧
          isBareId ('#' :: (id.toList ++ rule.part)) = false := by
  have own : ∀ c ∈ knownComponents tree, c.Styled ∧ (Widget.ofType? c.type).isSome = true := by
    intro c member
    obtain ⟨listed, known⟩ := List.mem_filter.mp member
    exact ⟨styled c listed, known⟩
  have standalone : Standalone (componentSection tree) := standalone_componentSection fun c listed =>
    Rule.neat_of_styled (styled c (Tree.walk_eq_preorderAll tree ▸ listed))
  refine ⟨(standalone_iff.mp standalone).1.faultless, ?_, ?_, fun w rule listed id word => ?_⟩
  · rw [entries_componentSection styled, List.filter_flatMap, List.flatMap_congr fun c member =>
      (filter_componentEntries (own c member).1 (own c member).2).1]
    refine forall₂_filter_flatMap (fun c member stays => ?_) fun c _ gone => ?_
    · exact baseRule (own c member).1 (by simpa using stays)
    · refine if_pos ?_
      rw [Rule.baseDeclarations, List.isEmpty_map]
      simpa using gone
  · refine ⟨(knownComponents tree).map fun c => Rule.breakpoints.flatMap (Rule.mediaEntries c), ?_, ?_⟩
    · rw [entries_componentSection styled, List.filter_flatMap, List.flatMap_congr fun c member =>
        (filter_componentEntries (own c member).1 (own c member).2).2]
      exact List.flatMap_def ..
    · rw [List.forall₂_map_right_iff, List.forall₂_same]
      exact fun c member => mediaRules (own c member).1
  · exact ⟨_, (Rule.entries_fixed word listed).2, Rule.isBareId_fixed listed id⟩

/-- A button with base styles. -/
def goButton : Component :=
  { id := "go", type := "button", styles := { base := [("margin", .number (.int 4))] } }

/-- A panel with styles of two widths around a button, whose kind has a fixed rule, and a component
of a kind that is not known. -/
def panel : Component := {
  id := "panel_1", type := "container"
  styles := {
    base := [("backgroundImage", .text "url(a;b)"), ("color", .text "red; /* ; */")]
    variants := [("md", .table [("padding", .int 16)]), ("sm", .table [("padding", .int 8)])] }
  children := [
    goButton,
    { id := "other", type := "unknown", styles := { base := [("margin", .number (.int 4))] } },
    { id := "bare", type := "button" }] }

theorem componentSection_rules_panel :
    (∀ c ∈ Tree.preorderAll [panel], c.Styled) ∧
      (tokens (componentSection [panel])).fault = none ∧
      (∃ first second, (entries (items (componentSection [panel]))).filter Entry.isIdRule =
          [.block "#panel_1" first, .block "#go" second] ∧
        Declares [⟨"background-image", "url(a;b)"⟩, ⟨"color", "red; /* ; */"⟩] first ∧
        Declares [⟨"margin", "4"⟩] second) ∧
      ∃ narrow wide small large, (entries (items (componentSection [panel]))).filter Entry.isMedia =
          [.block "@media (min-width: 640px)" narrow, .block "@media (min-width: 768px)" wide] ∧
        entries narrow = [.block "#panel_1" small] ∧ Declares [⟨"padding", "8"⟩] small ∧
        entries wide = [.block "#panel_1" large] ∧ Declares [⟨"padding", "16"⟩] large := by
  have styled : ∀ c ∈ Tree.preorderAll [panel], c.Styled := by decide +kernel
  obtain ⟨faultless, base, ⟨media, queries, each⟩, -⟩ := componentSection_rules styled
  refine ⟨styled, faultless, ?_, ?_⟩
  · have known : (knownComponents [panel]).filter (fun c => !c.styles.base.isEmpty) =
        [panel, goButton] := rfl
    rw [known] at base
    obtain ⟨_, _, ⟨first, rfl, one⟩, others, listed⟩ := List.forall₂_cons_left_iff.mp base
    obtain ⟨_, _, ⟨second, rfl, two⟩, none, rfl⟩ := List.forall₂_cons_left_iff.mp others
    obtain rfl := List.forall₂_nil_left_iff.mp none
    exact ⟨first, second, listed, one, two⟩
  · have known : knownComponents [panel] = [panel, goButton, { id := "bare", type := "button" }] := rfl
    rw [known] at each
    obtain ⟨_, _, ⟨own, -⟩, buttons, rfl⟩ := List.forall₂_cons_left_iff.mp each
    obtain ⟨_, _, ⟨goes, -⟩, last, rfl⟩ := List.forall₂_cons_left_iff.mp buttons
    obtain ⟨_, _, ⟨bares, -⟩, none, rfl⟩ := List.forall₂_cons_left_iff.mp last
    obtain rfl := List.forall₂_nil_left_iff.mp none
    obtain rfl := List.forall₂_nil_left_iff.mp goes
    obtain rfl := List.forall₂_nil_left_iff.mp bares
    have widths : Rule.breakpoints.filter (fun b => !(panel.styles.variant b.1).isEmpty) =
        [("sm", "640px"), ("md", "768px")] := rfl
    rw [widths] at own
    obtain ⟨_, _, ⟨narrow, small, rfl, inside, one⟩, others, rfl⟩ :=
      List.forall₂_cons_left_iff.mp own
    obtain ⟨_, _, ⟨wide, large, rfl, within, two⟩, none, rfl⟩ :=
      List.forall₂_cons_left_iff.mp others
    obtain rfl := List.forall₂_nil_left_iff.mp none
    exact ⟨narrow, wide, small, large, queries, inside, one, within, two⟩

end Site

end StaticSite
