import StaticSite.Text.Blank

/-! # Notices

What a stage of the generator has to tell besides its result: a level, the stage, and a text.
Stages are pure, so the notices of a stage are a function of their own, in the order in which the
stage comes upon them.
-/

namespace StaticSite

/-- How much a notice matters. -/
inductive Level
  | debug
  | info
  | warning
  | error
  deriving DecidableEq, Repr

namespace Level

/-- The name of a level. -/
def label : Level → String
  | .debug => "DEBUG"
  | .info => "INFO"
  | .warning => "WARNING"
  | .error => "ERROR"

/-- The rank of a level. -/
def rank : Level → Nat
  | .debug => 0
  | .info => 1
  | .warning => 2
  | .error => 3

end Level

/-- The stages that have something to tell. -/
inductive Stage
  | markup
  | styles
  | animations
  | formatting
  | archive
  deriving DecidableEq, Repr

/-- The name of a stage. -/
def Stage.label : Stage → String
  | .markup => "pagecraft.codegen.markup"
  | .styles => "pagecraft.codegen.styles"
  | .animations => "pagecraft.codegen.animations"
  | .formatting => "pagecraft.formatting.core"
  | .archive => "pagecraft.export.archive"

/-- A notice. -/
structure Notice where
  level : Level
  stage : Stage
  text : Text
  deriving DecidableEq, Repr

namespace Notice

/-- A notice as level, stage and text. -/
def line (n : Notice) : Text := n.level.label ++ " " ++ n.stage.label ++ ": " ++ n.text

/-- A notice after the text of a point in time. -/
def timedLine (time : Text) (n : Notice) : Text :=
  Text.joinWith " - " [time, n.stage.label.toList, n.level.label.toList, n.text]

/-- The notices that matter at a level. -/
def atLeast (level : Level) (notices : List Notice) : List Notice :=
  notices.filter fun n => level.rank ≤ n.level.rank

end Notice

end StaticSite
