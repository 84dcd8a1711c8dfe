import StaticSite.Command.Form
import StaticSite.Formatting.Outcome
import StaticSite.Site.Options

/-! # Arguments of the program

The command lines that the program takes: where its workspace is, what it is to tell, and one of
four commands with its arguments.
-/

namespace StaticSite.Command

/-- The name of the program. -/
def program : String := "pagecraft"

/-- The version of the program. -/
def version : String := "0.1.0"

/-! Forms. -/

/-- The switch that shows help. -/
def helpSwitch : Switch := ⟨["-h", "--help"], .help, "show this help message and exit"⟩

/-- The form that finds the workspace of any command line. -/
def locationForm : Form :=
  { program
    switches := [⟨["--config"], .take "CONFIG", ""⟩, ⟨["--workspace"], .take "WORKSPACE", ""⟩] }

/-- The commands with their help. -/
def commands : List (String × String) := [
  ("build", "Generate index.html and styles.css"),
  ("export", "Package the generated site as a ZIP archive"),
  ("format", "Format a markup or stylesheet file in place"),
  ("themes", "List preset themes")]

/-- The form of a whole command line. -/
def mainForm : Form :=
  { program
    description := "Pagecraft - compile component trees into static sites"
    switches := [
      helpSwitch,
      ⟨["--version"], .version (program ++ " " ++ version),
        "show program's version number and exit"⟩,
      ⟨["--config"], .take "CONFIG", "Path to a pagecraft.toml configuration file"⟩,
      ⟨["--verbose"], .turnOn,
        "Print full tracebacks and detailed CLI errors (or set PAGECRAFT_VERBOSE=1)"⟩,
      ⟨["--workspace"], .take "WORKSPACE",
        "Workspace root directory (defaults to current working directory)"⟩,
      ⟨["--log-level"], .choose ["debug", "info", "warn", "error"],
        "Set logging level (or set PAGECRAFT_LOG_LEVEL)"⟩]
    operand := .command commands }

/-- The switches of commands that generate a site. -/
def siteSwitches : List Switch := [
  helpSwitch,
  ⟨["--out", "-o"], .take "OUT", "Output directory (defaults to the workspace out_dir)"⟩,
  ⟨["--name"], .take "NAME",
    "Project name used as page title (defaults to the tree file name)"⟩,
  ⟨["--include-theme"], .turnOn, "Emit the theme as CSS custom properties"⟩,
  ⟨["--theme"], .take "THEME", "Preset theme to emit (see `pagecraft themes`)"⟩]

/-- The operand of commands that generate a site. -/
def treeOperand : Operand := .one "tree" "Path to the component tree JSON file"

/-- The form of `build`. -/
def buildForm : Form :=
  { program := program ++ " build", switches := siteSwitches, operand := treeOperand }

/-- The form of `export`. -/
def exportForm : Form :=
  { program := program ++ " export"
    switches := siteSwitches ++ [
      ⟨["--include-config"], .turnOn,
        "Add package.json, README.md, .gitignore and the deploy descriptor"⟩,
      ⟨["--platform"], .choose platforms,
        "Deploy target whose descriptor is added with --include-config"⟩]
    operand := treeOperand }

/-- The form of `format`. -/
def formatForm : Form :=
  { program := program ++ " format"
    switches := [
      helpSwitch,
      ⟨["--kind"], .choose ["markup", "stylesheet"],
        "Input kind (default: from the file extension)"⟩,
      ⟨["--check"], .turnOn,
        "Exit with status 1 instead of rewriting when the file would change"⟩]
    operand := .one "file" "File to format" }

/-- The form of `themes`. -/
def themesForm : Form := { program := program ++ " themes", switches := [helpSwitch] }

/-! Arguments. -/

/-- Where a command line says that the workspace and its configuration are. -/
structure Locations where
  workspace : Option Text := none
  config : Option Text := none
  deriving DecidableEq, Repr

/-- The arguments of a command that generates a site. -/
structure SiteArguments where
  tree : Text
  outDir : Option Text := none
  name : Option Text := none
  includeTheme : Bool := false
  theme : Option Text := none
  deriving DecidableEq, Repr

/-- A command with its arguments. -/
inductive Action
  | build (site : SiteArguments)
  | pack (site : SiteArguments) (includeConfig : Bool) (platform : Option Text)
  | format (file : Text) (kind : Option Text) (check : Bool)
  | themes
  deriving DecidableEq, Repr

/-- What a command line asks for. -/
structure Arguments where
  verbose : Bool := false
  level : Option Text := none
  /-- The command; without one, the program shows its help. -/
  action : Option Action := none
  deriving DecidableEq, Repr

/-- Reads where the workspace is. Words that are for others are none of its business. -/
def Locations.read (line : List Text) : Except Stop Locations :=
  (locationForm.read line).map fun r => ⟨r.value? "--workspace", r.value? "--config"⟩

namespace Action

/-- The arguments of a command that generates a site. -/
def siteArguments (r : Reading) : SiteArguments :=
  { tree := r.operand.getD []
    outDir := r.value? "--out"
    name := r.value? "--name"
    includeTheme := r.isOn "--include-theme"
    theme := r.value? "--theme" }

/-- Reads the words of a command. Also gives the words that it has no use for. -/
def read (name : String) (line : List Text) : Except Stop (Action × List Text) :=
  match name with
  | "build" => (buildForm.read line).map fun r => (.build (siteArguments r), r.extras)
  | "export" =>
      (exportForm.read line).map fun r =>
        (.pack (siteArguments r) (r.isOn "--include-config") (r.value? "--platform"), r.extras)
  | "format" =>
      (formatForm.read line).map fun r =>
        (.format (r.operand.getD []) (r.value? "--kind") (r.isOn "--check"), r.extras)
  | _ => (themesForm.read line).map fun r => (.themes, r.extras)

end Action

namespace Arguments

/-- What the main form and a command make of a command line: no word may be left. -/
def settle (r : Reading) (action : Option Action) (extras : List Text) : Except Stop Arguments :=
  match r.extras ++ extras with
  | [] => .ok { verbose := r.isOn "--verbose", level := r.value? "--log-level", action }
  | left => .error (.fault mainForm ("unrecognized arguments: " ++ Text.joinWith " " left))

/-- Reads a command line. -/
def read (line : List Text) : Except Stop Arguments :=
  match mainForm.read line with
  | .error stop => .error stop
  | .ok r =>
      match r.command with
      | none => settle r none []
      | some (name, rest) =>
          match Action.read name rest with
          | .error stop => .error stop
          | .ok (action, extras) => settle r (some action) extras

end Arguments

end StaticSite.Command
