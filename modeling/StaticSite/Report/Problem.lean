import StaticSite.Check.Issue
import StaticSite.Text.Lines

/-! # Problems

What an operation reports when it cannot go on: a kind, a message, and for problems of the
generator and its commands a code and a hint. A problem may have a cause, and a command's problem a
context of further data.
-/

namespace StaticSite

/-- A kind of problem. -/
inductive ProblemKind
  /-- Any problem of the generator. -/
  | general
  | treeLoad
  | formatting
  | exporting
  | config
  /-- Any problem of a command. -/
  | command
  | commandConfig
  | commandValidation
  | commandRuntime
  | commandBuild
  | commandFile
  | value
  | key
  | type
  | attribute
  | overflow
  | os
  | fileExists
  | fileNotFound
  | isADirectory
  | notADirectory
  | permission
  | decoding
  | jsonDecoding
  | tomlDecoding
  /-- Data that does not pass its checks. -/
  | validation
  deriving DecidableEq, Repr

namespace ProblemKind

/-- The name of a kind. -/
def label : ProblemKind → String
  | .general => "PagecraftError"
  | .treeLoad => "TreeLoadError"
  | .formatting => "FormattingError"
  | .exporting => "ExportError"
  | .config => "ConfigError"
  | .command => "CLIError"
  | .commandConfig => "CLIConfigError"
  | .commandValidation => "CLIValidationError"
  | .commandRuntime => "CLIRuntimeError"
  | .commandBuild => "CLIBuildError"
  | .commandFile => "CLIFileNotFoundError"
  | .value => "ValueError"
  | .key => "KeyError"
  | .type => "TypeError"
  | .attribute => "AttributeError"
  | .overflow => "OverflowError"
  | .os => "OSError"
  | .fileExists => "FileExistsError"
  | .fileNotFound => "FileNotFoundError"
  | .isADirectory => "IsADirectoryError"
  | .notADirectory => "NotADirectoryError"
  | .permission => "PermissionError"
  | .decoding => "UnicodeDecodeError"
  | .jsonDecoding => "JSONDecodeError"
  | .tomlDecoding => "TOMLDecodeError"
  | .validation => "ValidationError"

/-- All kinds. -/
def all : List ProblemKind := [
  .general, .treeLoad, .formatting, .exporting, .config, .command, .commandConfig,
  .commandValidation, .commandRuntime, .commandBuild, .commandFile, .value, .key, .type,
  .attribute, .overflow, .os, .fileExists, .fileNotFound, .isADirectory, .notADirectory,
  .permission, .decoding, .jsonDecoding, .tomlDecoding, .validation]

/-- The kind with a name. -/
def ofLabel? (label : String) : Option ProblemKind := all.find? (·.label == label)

/-- Whether a kind is one of the generator's own. -/
def isGenerator : ProblemKind → Bool
  | .general | .treeLoad | .formatting | .exporting | .config => true
  | _ => false

/-- Whether a kind is one of the commands' own. -/
def isCommand : ProblemKind → Bool
  | .command | .commandConfig | .commandValidation | .commandRuntime | .commandBuild
  | .commandFile => true
  | _ => false

/-- Whether a kind is a problem with files. -/
def isOs : ProblemKind → Bool
  | .os | .fileExists | .fileNotFound | .isADirectory | .notADirectory | .permission => true
  | _ => false

/-- The code of problems that are given none. -/
def code? : ProblemKind → Option String
  | .treeLoad => some "TREE_INVALID"
  | .formatting => some "FORMAT_FAILED"
  | .exporting => some "EXPORT_FAILED"
  | .config => some "CONFIG_INVALID"
  | .commandConfig => some "CLI_CONFIG_ERROR"
  | .commandValidation => some "CLI_VALIDATION_ERROR"
  | .commandRuntime => some "CLI_RUNTIME_ERROR"
  | .commandBuild => some "CLI_BUILD_ERROR"
  | .commandFile => some "CLI_FILE_NOT_FOUND"
  | _ => none

theorem mem_all (k : ProblemKind) : k ∈ all := by cases k <;> decide

end ProblemKind

/-- A problem. -/
structure Problem where
  kind : ProblemKind
  message : Text
  code : Option String := kind.code?
  hint : Option Text := none
  /-- Further data for the reader of a command's problem. -/
  context : Fields := []
  /-- What is wrong with data that does not pass its checks. -/
  issues : List Issue := []
  cause : Option Problem := none

namespace Problem

/-- What a problem says: the name that a lookup did not find is quoted. -/
def text (p : Problem) : Text :=
  if p.kind = .key then Text.quoted p.message else p.message

/-- A text that is there and not empty. -/
def given (t : Option Text) : Option Text := t.filter (!·.isEmpty)

/-- A problem of the generator on one line: message, code and hint. -/
def summary (p : Problem) : Text :=
  let first := match given (p.code.map String.toList) with
    | some code => p.message ++ " (" ++ code ++ ")"
    | none => p.message
  let second := match given p.hint with
    | some hint => "Hint: " ++ hint
    | none => []
  Text.joinWith " " ([first, second].filter (!·.isEmpty))

/-- The lines that report a command's problem. -/
def commandLines (verbose : Bool) (p : Problem) : List Text :=
  let first : Text := "Error [" ++ p.code.getD "" ++ "]: " ++ p.message
  let hint : List Text := match given p.hint with
    | some hint => ["Hint: " ++ hint]
    | none => []
  let heading : Text := "\nContext:"
  let context : List Text :=
    if verbose && !p.context.isEmpty then
      heading :: p.context.map fun (key, v) => "  " ++ key ++ ": " ++ v.plain
    else []
  first :: hint ++ context

/-- The lines that report any other problem. -/
def plainLines (verbose : Bool) (p : Problem) : List Text :=
  let first : Text :=
    if p.kind.isGenerator then "Error: " ++ p.summary
    else "Error: " ++ p.kind.label ++ ": " ++ p.text
  let cause : List Text := match p.cause with
    | some c => if verbose then ["Caused by: " ++ c.kind.label ++ ": " ++ c.text] else []
    | none => []
  first :: cause

/-- The report of a problem for a terminal. -/
def report (verbose : Bool) (p : Problem) : Text :=
  Text.unlines (if p.kind.isCommand then p.commandLines verbose else p.plainLines verbose)

/-- A command's problem that stands for another one, whose kind and message go into its context. -/
def wrap (p : Problem) (kind : ProblemKind) (message : Text) (code : Option String)
    (hint : Option Text) (context : Fields) : Problem :=
  { kind, message, code := code.orElse fun _ => kind.code?, hint
    context := Fields.putAll context
      [("original_exception", .text (String.ofList p.text)),
        ("original_type", .text p.kind.label)] }

end Problem

end StaticSite
