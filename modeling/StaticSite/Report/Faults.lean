import StaticSite.Editor
import StaticSite.Json.Reader
import StaticSite.Report.Problem
import StaticSite.Site.Markup
import StaticSite.Theme.Preset
import StaticSite.Tree.Load
import StaticSite.Workspace.Files

/-! # Faults as problems

Each part of the library has faults of its own. Here they become problems: the kind they are
reported as, and what they say.
-/

namespace StaticSite.Problem

/-- Data that does not pass its checks. -/
def ofIssues (issues : List Issue) : Problem := { kind := .validation, message := [], issues }

/-- Data that is no tree. -/
def ofTreeFault (fault : Tree.Fault) : Problem :=
  { kind := .treeLoad
    message := fault.message
    hint := fault.hint.map String.toList
    cause := match fault with
      | .invalid issues => some (ofIssues issues)
      | .noComponents => none }

/-- A component that has no markup. -/
def ofWidgetFault (fault : Widget.Fault) : Problem := { kind := .type, message := fault.message }

/-- Checked data, or the problem that it does not pass its checks. -/
def ofChecked {α : Type} : Checked α → Except Problem α
  | .valid a => .ok a
  | .invalid issues => .error (ofIssues issues)

/-- A request that a theme cannot meet. -/
def ofThemeFault (fault : Theme.Fault) : Problem :=
  let kind : ProblemKind := match fault with
    | .unknownTheme _ | .unknownGroup _ => .config
    | .notPair .. => .value
    | .unexpectedGroup _ | .notIterable _ | .notSequence _ | .badKey _ => .type
  { kind, message := fault.message, hint := fault.hint }

/-- A change of a piece of page code that there is none of. -/
def ofUnknownPiece (name : String) : Problem :=
  { kind := .type, message := Editor.unexpectedMessage name }

/-- A path that cannot be used. -/
def ofFileFault (fault : FileFault) : Problem :=
  let kind : ProblemKind := match fault.cause with
    | .notFound => .fileNotFound
    | .alreadyExists => .fileExists
    | .notDirectory => .notADirectory
    | .isDirectory => .isADirectory
    | .nameTooLong => .os
    | .nul => .value
  { kind, message := fault.message }

/-- Bytes that are no text. -/
def ofDecodingFault (fault : Utf8.Fault) : Problem :=
  { kind := .decoding, message := fault.message }

/-- A text that is no JSON. -/
def ofJsonFault (t : Text) (fault : Json.Fault) : Problem :=
  { kind := .jsonDecoding, message := fault.message t }

/-- A value that lacks an attribute. -/
def ofMissingAttribute (typeName name : String) : Problem :=
  { kind := .attribute
    message := "'" ++ typeName ++ "' object has no attribute '" ++ name ++ "'" }

end StaticSite.Problem
