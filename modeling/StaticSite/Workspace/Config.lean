import StaticSite.Number.Whole
import StaticSite.Site.Options
import StaticSite.Toml.Document
import StaticSite.Workspace.Source

/-! # The configuration of a workspace

A workspace may have a file that sets the defaults of its commands and the code for every page. The
file is TOML if its name says so, and JSON otherwise. Paths in it start from the root of the
workspace.
-/

namespace StaticSite.Workspace

/-- The defaults of commands. -/
structure Defaults where
  outDir : Path
  platform : String := "static"
  includeConfig : Bool := false
  includeTheme : Bool := false
  theme : String := "default"
  indentSize : Int := 2
  printWidth : Int := 100

/-- The configuration of a workspace. -/
structure Config where
  root : Path
  defaults : Defaults
  pageCode : PageCode := {}
  /-- How much is told, as raw data; null where nothing is set. -/
  logLevel : Value := .null
  /-- The file that the configuration was read from. -/
  source : Option Path := none
  /-- What the file says. -/
  raw : Fields := []

namespace Config

/-- The names that a configuration file may have, the first one first. -/
def fileNames : List String := ["pagecraft.toml", ".pagecraftrc"]

/-- The directory that sites are written to unless another one is set. -/
def standardOutDir : String := "build"

/-- A problem of a configuration. -/
def problem (message : Text) (hint : Option Text) (cause : Option Problem) : Problem :=
  { kind := .config, message, hint, cause }

/-- A file fault as a problem. -/
def settle {α : Type} (r : Except FileFault α) : Except Problem α := r.mapError .ofFileFault

/-! Reading the file. -/

/-- The data of a TOML file. -/
def readToml (files : Files) (path : Path) : Except Problem Value := do
  let content ← settle (files.read path)
  let t := Toml.joinLineEnds (← content.decode.mapError .ofDecodingFault)
  match Toml.read t with
  | .ok fields => pure (.table fields)
  | .error fault => .error { kind := .tomlDecoding, message := fault.message t }

/-- The data of a configuration file. -/
def readFile (files : Files) (path : Path) : Except Problem Value :=
  (if path.suffix = ".toml" then readToml files path else files.readJson path).mapError fun p =>
    problem ("Failed to read " ++ path.name ++ ": " ++ p.text) none (some p)

/-! Sections. -/

/-- The value of a key that counts as set. -/
def present (fields : Fields) (key : String) : Option Value :=
  (Fields.get? fields key).filter Value.isTruthy

/-- A section of a configuration; what does not count as set is an empty one. -/
def readSection (fields : Fields) (name : String) : Except Problem Fields :=
  match present fields name with
  | none => .ok []
  | some (.table inner) => .ok inner
  | some _ => .error (problem ("[" ++ name ++ "] must be a table") none none)

/-- A setting that has to be true or false. -/
def flag (fields : Fields) (key : String) (default : Bool) : Except Problem Bool :=
  match Fields.get? fields key with
  | none => .ok default
  | some (.bool b) => .ok b
  | some v =>
      .error (problem ("'" ++ key ++ "' must be true or false, got " ++ v.quoted)
        (some "Use a TOML boolean or a JSON true/false, not a string") none)

/-- A path as a setting gives it. -/
def pathOf : Value → Except Problem Path
  | .text s => .ok (.ofText s)
  | v => .error
      { kind := .type
        message := "expected str, bytes or os.PathLike object, not " ++ v.shortTypeName }

/-- A whole number as a setting gives it. -/
def wholeOf : Value → Except Problem Int
  | .int n => .ok n
  | .bool b => .ok (if b then 1 else 0)
  | .float x =>
      match Binary.ofFloat x with
      | .nan => .error { kind := .value, message := "cannot convert float NaN to integer" }
      | .infinite _ =>
          .error { kind := .overflow, message := "cannot convert float infinity to integer" }
      | b => .ok (b.truncate?.getD 0)
  | .text s =>
      (Number.whole s).mapError fun fault => { kind := .value, message := fault.message }
  | v => .error
      { kind := .type
        message := "int() argument must be a string, a bytes-like object or a real number, not '" ++
          v.typeName ++ "'" }

/-- A whole number that layout needs. -/
def layoutNumber (fields : Fields) (key : String) (default : Int) : Except Problem Int :=
  match Fields.get? fields key with
  | none => .ok default
  | some v =>
      (wholeOf v).mapError fun p =>
        if p.kind = .overflow then p
        else problem ("Invalid formatting defaults: " ++ p.text) none (some p)

/-- The directory that sites are written to: a path from the root, without dots unless it starts at
the top. -/
def outDirOf (files : Files) (root : Path) (v : Option Value) : Except Problem Path := do
  let path ← match v with
    | some v => pathOf v
    | none => .ok (.ofText standardOutDir)
  if path.isAbsolute then pure path else settle (files.resolve (root.join path))

/-- The platform that a setting names. -/
def platformOf (v : Option Value) : Except Problem String :=
  let name : Text := match v with
    | some v => v.plain
    | none => "static"
  if platforms.contains (String.ofList name) then .ok (String.ofList name)
  else
    .error (problem ("Unsupported platform '" ++ name ++ "'")
      (some ("Use one of: " ++ Text.joinWith ", " (platforms.map String.toList))) none)

/-- The defaults that a configuration sets. -/
def readDefaults (files : Files) (root : Path) (fields : Fields) : Except Problem Defaults := do
  let inner ← readSection fields "defaults"
  let outDir ← outDirOf files root (present inner "out_dir")
  let platform ← platformOf (present inner "platform")
  let indentSize ← layoutNumber inner "indent_size" 2
  let printWidth ← layoutNumber inner "print_width" 100
  let includeConfig ← flag inner "include_config" false
  let includeTheme ← flag inner "include_theme" false
  let theme := match present inner "theme" with
    | some v => String.ofList v.plain
    | none => "default"
  pure { outDir, platform, includeConfig, includeTheme, theme, indentSize, printWidth }

/-- A piece of code that a configuration gives, in a file of its own or in place. -/
def piece (files : Files) (root : Path) (fields : Fields) (key : String) :
    Except Problem (Option String) :=
  match present fields (key ++ "_file") with
  | some reference => do
      let path := root.join (← pathOf reference)
      match files.readText path with
      | .ok t => pure (some (String.ofList t))
      | .error p =>
          .error (if p.kind.isOs then
            problem ("Cannot read " ++ key ++ "_file '" ++ reference.plain ++ "': " ++ p.text) none
              (some p)
          else p)
  | none =>
      match Fields.get? fields key with
      | none | some .null => .ok none
      | some v => .ok (some (String.ofList v.plain))

/-- The code for every page that a configuration sets. -/
def readPageCode (files : Files) (root : Path) (fields : Fields) : Except Problem PageCode := do
  let inner ← readSection fields "global_code"
  let css ← piece files root inner "css"
  let javascript ← piece files root inner "javascript"
  let headHtml ← piece files root inner "head_html"
  pure { css, javascript, headHtml }

/-! The whole configuration. -/

/-- The configuration file of a workspace: the one that is asked for, or the first of the usual
ones, if it is there. -/
def locate (files : Files) (root : Path) (asked : Option Path) : Except Problem (Option Path) :=
  match asked with
  | some path => do pure (if ← settle (files.hasAny path) then some path else none)
  | none => settle do
      for name in fileNames do
        let path := root.child name
        if ← files.hasAny path then return some path
      return none

/-- The configuration that a file gives. -/
def ofFile (files : Files) (root path : Path) (level : Option String) : Except Problem Config := do
  match ← readFile files path with
  | .table fields =>
      let defaults ← readDefaults files root fields
      let pageCode ← readPageCode files root fields
      let logLevel := match level with
        | some s => .text s
        | none => (Fields.get? fields "log_level").getD .null
      pure { root, defaults, pageCode, logLevel, source := some path, raw := fields }
  | v => .error (.ofMissingAttribute v.typeName "get")

/-- The configuration of a workspace; a level of telling that is given wins over the file's. -/
def load (files : Files) (directory : Path) (asked : Option Path) (level : Option String) :
    Except Problem Config := do
  let root ← settle (files.resolve directory)
  let level := level.filter (!·.isEmpty)
  match ← locate files root asked, asked with
  | some path, _ => ofFile files root path level
  | none, some path => .error (problem ("Config file not found: " ++ path.text) none none)
  | none, none =>
      let outDir ← settle (files.resolve (root.child standardOutDir))
      pure { root, defaults := { outDir }, logLevel := (level.map Value.text).getD .null }

end Config

end StaticSite.Workspace
