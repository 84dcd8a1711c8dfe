import StaticSite.Proofs.Site.Property
import StaticSite.Proofs.Site.Scoping

/-! # Rules stand on their own

The rules of a component whose names are plain and whose values stay in their blocks can be read on
their own: every line is settled, and the braces are in balance.
-/

namespace StaticSite

open Stylesheet

/-! ## Tidy components -/

/-- An animation with plain names and with values that stay in their blocks. -/
structure Animation.Tidy (a : Animation) : Prop where
  id : Plain a.id.toList
  timeline : ∀ k ∈ a.timeline, ∀ p ∈ k.properties, Plain p.1.toList ∧ p.2.Fits
  easing : Fits a.playback.easing.toList
  direction : ∀ d ∈ a.playback.direction, Fits d.toList

instance (a : Animation) : Decidable a.Tidy :=
  decidable_of_iff (Plain a.id.toList ∧
      (∀ k ∈ a.timeline, ∀ p ∈ k.properties, Plain p.1.toList ∧ p.2.Fits) ∧
      Fits a.playback.easing.toList ∧ ∀ d ∈ a.playback.direction, Fits d.toList)
    ⟨fun all => ⟨all.1, all.2.1, all.2.2.1, all.2.2.2⟩,
      fun tidy => ⟨tidy.id, tidy.timeline, tidy.easing, tidy.direction⟩⟩

/-- A component with plain names, with values that stay in their blocks and with code that stands on
its own. -/
structure Component.Tidy (c : Component) : Prop where
  id : Plain c.id.toList
  animations : ∀ a ∈ c.props.animations, a.Tidy
  base : ∀ p ∈ c.styles.base, Plain p.1.toList ∧ p.2.Fits
  variants : ∀ b ∈ Rule.breakpoints, ∀ p ∈ c.styles.variant b.1, Plain p.1.toList ∧ p.2.Fits
  code : ∀ css ∈ c.props.customCode.bind (·.css), Standalone css.toList

instance (c : Component) : Decidable c.Tidy :=
  decidable_of_iff (Plain c.id.toList ∧ (∀ a ∈ c.props.animations, a.Tidy) ∧
      (∀ p ∈ c.styles.base, Plain p.1.toList ∧ p.2.Fits) ∧
      (∀ b ∈ Rule.breakpoints, ∀ p ∈ c.styles.variant b.1, Plain p.1.toList ∧ p.2.Fits) ∧
      ∀ css ∈ c.props.customCode.bind (·.css), Standalone css.toList)
    ⟨fun all => ⟨all.1, all.2.1, all.2.2.1, all.2.2.2.1, all.2.2.2.2⟩,
      fun tidy => ⟨tidy.id, tidy.animations, tidy.base, tidy.variants, tidy.code⟩⟩

/-- Options with plain names of variables, with values that stay in their blocks and with code that
stands on its own. -/
structure GenerationOptions.Tidy (options : GenerationOptions) : Prop where
  theme : ∀ properties ∈ options.themeVariables, ∀ p ∈ properties,
    Plain p.1.toList ∧ Fits p.2.toList
  code : ∀ css ∈ options.pageCode.bind (·.css), Standalone css.toList

instance (options : GenerationOptions) : Decidable options.Tidy :=
  decidable_of_iff ((∀ properties ∈ options.themeVariables, ∀ p ∈ properties,
      Plain p.1.toList ∧ Fits p.2.toList) ∧
      ∀ css ∈ options.pageCode.bind (·.css), Standalone css.toList)
    ⟨fun both => ⟨both.1, both.2⟩, fun tidy => ⟨tidy.theme, tidy.code⟩⟩

/-! ## Lines and blocks -/

theorem Stylesheet.Balanced.unlines {ls : List Text} (even : Balanced ls) :
    Standalone (Text.unlines ls) := even.joinWith (by decide)

theorem Stylesheet.Balanced.separate {pieces : List Text} (even : Balanced pieces) :
    Standalone (Animation.separate pieces) := even.joinWith (by decide)

namespace Rule

theorem balanced_blockLines {indent start : Text} (plain : Plain indent) (prelude : Prelude start)
    {body : List Text} (even : Balanced body) : Balanced (blockLines indent start body) := by
  have whole : Prelude (indent ++ start ++ [' ']) :=
    (prelude.plain_append plain).append_plain (by decide)
  obtain ⟨opens, left⟩ := whole.append_opening
  obtain ⟨closes, right⟩ := plain.inert.toInline.append_mark (.inr rfl)
  have opening : indent ++ start ++ " \x7b" = indent ++ start ++ [' '] ++ ['\x7b'] := by simp
  rw [blockLines, opening]
  refine even.block opens ?_ closes right
  rw [left]
  rfl

theorem balanced_lines {indent : Text} (plain : Plain indent) {ds : List Property.Declaration}
    (each : ∀ d ∈ ds, Plain d.name ∧ Inline d.value) : Balanced (ds.map (·.line indent)) := by
  refine .of_standalone fun line member => ?_
  obtain ⟨d, inside, rfl⟩ := List.mem_map.mp member
  obtain ⟨name, value⟩ := each d inside
  exact d.standalone_line plain name value

theorem balanced_declarationBlock {indent start : Text} (plain : Plain indent)
    (prelude : Prelude start) {ds : List Property.Declaration}
    (each : ∀ d ∈ ds, Plain d.name ∧ Inline d.value) :
    Balanced (declarationBlock indent start ds) :=
  balanced_blockLines plain prelude (balanced_lines (plain.append (by decide)) each)

/-- A component's selector with something behind it. -/
theorem prelude_selector {id : String} (plain : Plain id.toList) {part : Text} (inert : Inert part) :
    Prelude (selector id ++ part) :=
  .of_plain (Site.plain_selector plain) ⟨'#', List.mem_cons_self, by decide⟩ inert

theorem prelude_media : ∀ b ∈ breakpoints, Prelude ("@media (min-width: " ++ b.2 ++ ")") := by
  decide

theorem prelude_id {id : String} (plain : Plain id.toList) : Prelude (selector id) := by
  have prelude := prelude_selector plain Plain.nil.inert
  rwa [List.append_nil] at prelude

theorem fixed_inert (w : Widget) :
    ∀ rule ∈ fixed w, Inert rule.part.toList ∧ ∀ d ∈ rule.declarations, Inline d.toList := by
  cases w
  all_goals
    simp only [fixed, List.forall_mem_cons]
    -- Literals become lists of characters first, which the kernel is slow to make of them.
    repeat rw [String.toList_ofList]
    decide +kernel

theorem balanced_fixedLines {w : Widget} {rule : Fixed} (listed : rule ∈ fixed w) :
    Balanced (rule.declarations.map fun (d : String) => ("  " ++ d ++ ";" : Text)) := by
  refine .of_standalone fun line member => ?_
  obtain ⟨d, inside, rfl⟩ := List.mem_map.mp member
  exact (Inline.plain_append (by decide) ((fixed_inert w rule listed).2 d inside)).standalone

theorem standalone_fixed {id : String} (plain : Plain id.toList) {w : Widget} {rule : Fixed}
    (listed : rule ∈ fixed w) : Standalone (rule.text id) :=
  (balanced_blockLines .nil (prelude_selector plain (fixed_inert w rule listed).1)
    (balanced_fixedLines listed)).unlines

/-- A component whose rules have a plain id and inline declarations. -/
structure Neat (c : Component) : Prop where
  id : Plain c.id.toList
  base : ∀ d ∈ baseDeclarations c, Plain d.name ∧ Inline d.value
  variants : ∀ b ∈ breakpoints, ∀ d ∈ variantDeclarations c b.1, Plain d.name ∧ Inline d.value

section Component

variable {c : Component} (neat : Neat c)
include neat

theorem standalone_base : ∀ t ∈ base c, Standalone t := by
  intro t member
  rw [base] at member
  split at member
  · cases member
  · rw [List.mem_singleton.mp member]
    exact (balanced_declarationBlock .nil (prelude_id neat.id) neat.base).unlines

theorem standalone_media {b : String × String} (known : b ∈ breakpoints) :
    ∀ t ∈ media c b.1 b.2, Standalone t := by
  intro t member
  rw [media] at member
  split at member
  · cases member
  · rw [List.mem_singleton.mp member]
    exact (balanced_blockLines .nil (prelude_media b known)
      (balanced_declarationBlock (by decide) (prelude_id neat.id) (neat.variants b known))).unlines

theorem standalone_responsive : Standalone (responsive c) := by
  refine Balanced.unlines (.of_standalone fun t member => ?_)
  rcases List.mem_append.mp member with inside | behind
  · exact standalone_base neat t inside
  · obtain ⟨b, known, inside⟩ := List.mem_flatMap.mp behind
    exact standalone_media neat known t inside

theorem standalone_component (w : Widget) : Standalone (component w c) := by
  refine Balanced.unlines (.of_standalone fun t member => ?_)
  rcases List.mem_append.mp member with own | other
  · split at own
    · cases own
    · rw [List.mem_singleton.mp own]
      exact standalone_responsive neat
  · obtain ⟨rule, listed, rfl⟩ := List.mem_map.mp other
    exact standalone_fixed neat.id listed

end Component

end Rule

end StaticSite
