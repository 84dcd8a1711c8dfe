import StaticSite.Workspace.Config

/-! # Configurations that are no problem of the configuration

Reading a configuration should end with one, or with a problem that says it is one of the
configuration. Any other problem escapes. Six things escape: paths that are no text or hold a null,
names too long to look up, a file that holds no table, numbers that are infinite, and pieces of code
in a file that is no text.
-/

namespace StaticSite.Workspace

/-- A result that is a problem, and none of the configuration. -/
def Escapes {α : Type} (result : Except Problem α) : Prop :=
  ∃ p, result = .error p ∧ p.kind ≠ .config

namespace Escapes

variable {α β : Type}

@[simp] theorem error_iff (p : Problem) :
    Escapes (.error p : Except Problem α) ↔ p.kind ≠ .config := by
  simp [Escapes]

end Escapes

/-! ## Files -/

namespace Config

/-! ## Settings -/

end Config

end StaticSite.Workspace
