import StaticSite.Command.Arguments
import StaticSite.Workspace.Config

/-! # What a run may look at

A run works on a picture of the files. These are the paths that have to be in the picture: those
that the command line names, those where a workspace keeps its configuration, and those that the
configuration names.
-/

namespace StaticSite.Command

open Workspace (Config)

/-- The texts that a word of a command line may give as a value: the word, what follows an equals
sign, and what follows a short switch. -/
def valuesOf (word : Text) : List Text :=
  [word, (Text.splitFirst '=' word).2, word.drop 2].filter (!·.isEmpty)

/-- A path with the files of a site below it. -/
def sitePaths (path : Path) : List Path := [path, path.child "index.html", path.child "styles.css"]

/-- The paths that a command line names. -/
def linePaths (files : Files) (line : List Text) : List Path :=
  (line.flatMap valuesOf).flatMap fun value =>
    sitePaths (Path.join ⟨['/'], files.here⟩ (.ofText value))

/-- The paths where a workspace keeps its configuration. -/
def configPaths (root : Path) (asked : Option Path) : List Path :=
  asked.toList ++ Config.fileNames.map fun (name : String) => root.child name

/-- The paths that a configuration names, as seen from the root of the workspace. -/
def settingPaths (root : Path) (config : Value) : List Path :=
  let sections := (config.fields?.getD []).map fun (_, inner) => inner.fields?.getD []
  let settings := sections.flatten.filterMap fun (_, v) =>
    match v with
    | .text s => some s.toList
    | _ => none
  (Config.standardOutDir.toList :: settings).flatMap fun (setting : Text) =>
    sitePaths (root.child setting)

/-- The data of the configuration file of a workspace, null if there is none. -/
def configData (files : Files) (root : Path) (asked : Option Path) : Value :=
  match Config.locate files root asked with
  | .ok (some path) => (Config.readFile files path).toOption.getD .null
  | _ => .null

end StaticSite.Command
