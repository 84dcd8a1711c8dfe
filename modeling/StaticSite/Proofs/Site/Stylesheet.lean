import StaticSite.Proofs.Site.Animation

/-! # The sections of a stylesheet

Where names are plain, values stay in their blocks and foreign code is accepted on its own, every
section of a stylesheet stands on its own. So the stylesheet is accepted, and it is read as its
sections one after the other.
-/

namespace StaticSite.Site

open Stylesheet
open Animation (separate)

/-! ## The tokens of sections -/

theorem standalone_componentRules {tree : List Component}
    (neat : ∀ c ∈ Tree.walk tree, Rule.Neat c) : ∀ t ∈ componentRules tree, Standalone t := by
  intro t member
  obtain ⟨c, listed, made⟩ := List.mem_filterMap.mp member
  obtain ⟨w, -, rules⟩ := Option.bind_eq_some_iff.mp made
  dsimp only at rules
  split at rules
  · cases rules
  · cases rules
    exact Rule.standalone_component (neat c listed) w

theorem standalone_componentSection {tree : List Component}
    (neat : ∀ c ∈ Tree.walk tree, Rule.Neat c) : Standalone (componentSection tree) :=
  (Balanced.of_standalone (standalone_componentRules neat)).separate

/-- A comment on a line of its own and what stands below it. -/
theorem items_below {body below : Text} (plain : Plain body) (standalone : Standalone below) :
    Standalone ((Lexeme.comment body).text ++ '\n' :: below) ∧
      items ((Lexeme.comment body).text ++ '\n' :: below) =
        .comment (Lexeme.comment body).text :: items below := by
  obtain ⟨settled, read⟩ := plain.comment
  obtain ⟨newline, none⟩ := @Settled.blanks ['\n'] (by decide)
  have comment : Standalone (Lexeme.comment body).text := by
    refine standalone_iff.mpr ⟨settled, ?_⟩
    rw [read]
    rfl
  have line : Standalone ['\n'] := by decide
  refine ⟨comment.append (line.append standalone), ?_⟩
  rw [settled.items_append, read]
  change _ ++ items (['\n'] ++ below) = _
  rw [newline.items_append, none]
  rfl

/-- A card with braces and parentheses in comments and strings of its values and its code. -/
def card : Component := {
  id := "card-1", type := "container"
  props := {
    animations := [{
      id := "pop_1"
      timeline := [⟨0.5, [("fontSize", .number (.int 12)), ("content", .text "'\x7b'")]⟩]
      playback := { easing := "cubic-bezier(0, 0, 1, 1)", direction := some "reverse" } }]
    customCode := some { css := some "/* \x7b */\nbutton \x7b content: '(' \x7d\n" } }
  styles := {
    base := [("backgroundImage", .text "url(a;b)"), ("padding", .number (.int 8))]
    variants := [("md", .table [("padding", .int 16)])] } }

end StaticSite.Site
