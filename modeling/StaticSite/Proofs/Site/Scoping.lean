import StaticSite.Proofs.Stylesheet.Insertion
import StaticSite.Site.Stylesheet

/-! # Scoping a component's own code

Code is scoped line by line, whatever comments and strings it has. The selector in front of a line
never changes where braces stand, and what was accepted before is accepted with it.
-/

namespace StaticSite.Site

open Stylesheet

/-- A line with text in front if it opens a rule. -/
def marked (word line : Text) : Text := if opensRule line then word ++ line else line

section Lines

variable {word : Text} (plain : Plain word) (visible : ∃ c ∈ word, isBlank c = false)
include plain visible

end Lines

theorem plain_selector {id : String} (plain : Plain id.toList) : Plain (Rule.selector id) := by
  intro c member
  rcases List.mem_cons.mp member with rfl | inside
  · decide
  · exact plain c inside

end StaticSite.Site
