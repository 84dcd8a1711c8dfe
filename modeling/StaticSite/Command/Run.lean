import StaticSite.Archive.Export
import StaticSite.Command.Arguments
import StaticSite.Command.Usage
import StaticSite.Workspace.Config

/-! # Running the program

A run takes the files as they are, what the environment says, and a command line. It leaves the
files as they are then, what it told and complained about, and the status that it ends with. A
command reports the problems that it meets; a problem outside of a command ends the run as it is.
-/

namespace StaticSite.Command

open Workspace (Config)

/-- What surrounds a run: the text of its time, and settings that say how much to tell and whether
to report at length. -/
structure Environment where
  time : Text
  level : Option String := none
  verbose : Option String := none
  debug : Option String := none
  deriving DecidableEq, Repr

/-- What a run leaves. -/
structure Run where
  files : Files
  output : Text := []
  complaint : Text := []
  /-- The status that the run ends with, or the problem that ends it. -/
  ending : Except Problem Nat

/-- What a command leaves: lines to tell and a status, or a problem. -/
structure Outcome where
  files : Files
  notices : List Notice := []
  result : Except Problem (List Text × Nat)

/-! How much is told. -/

/-- Whether a setting of the environment turns something on. -/
def isOn (setting : Option String) : Bool :=
  match setting with
  | some s => ["1", "true", "yes", "on"].contains (String.ofList (Text.lower (Text.trim s)))
  | none => false

/-- Whether problems are reported at length. -/
def isVerbose (environment : Environment) (arguments : Arguments) : Bool :=
  arguments.verbose || isOn environment.verbose || isOn environment.debug

/-- The level with a name. -/
def levelOf (name : Text) : Level :=
  match String.ofList (Text.lower name) with
  | "debug" => .debug
  | "warn" | "warning" => .warning
  | "error" => .error
  | _ => .info

/-- The level of a run: the one that the command line asks for, or else the configured one. -/
def chosenLevel (asked : Option Text) (configured : Value) : Except Problem Level :=
  match asked, configured with
  | some name, _ => .ok (levelOf name)
  | none, .text name => .ok (levelOf name)
  | none, v => if v.isTruthy then .error (.ofMissingAttribute v.typeName "lower") else .ok .info

/-! Arguments in their workspace. -/

/-- The path from the top that a text names. -/
def resolved (files : Files) (t : Text) : Except Problem Path :=
  (files.resolve (.ofText t)).mapError .ofFileFault

/-- The root of the workspace and the configuration file that is asked for. -/
def Locations.resolve (files : Files) (locations : Locations) :
    Except Problem (Path × Option Path) := do
  let root ← match locations.workspace with
    | some t => resolved files t
    | none => .ok ⟨['/'], files.here⟩
  let config ← locations.config.mapM (resolved files)
  pure (root, config)

/-- The layout style that a configuration sets. -/
def configuredStyle (config : Config) : Style :=
  ⟨.spaces, config.defaults.indentSize, config.defaults.printWidth⟩

/-- Whether the file that a path leads to is there. -/
def hasFile (files : Files) (path : Path) : Except Problem Bool :=
  (files.hasFile path).mapError .ofFileFault

/-- The context that names a path. -/
def pathContext (path : Path) : Fields := [("path", .text (String.ofList path.text))]

/-- Loads the tree that a command line names. -/
def loadTree (files : Files) (path : Path) : Except Problem (List Component) := do
  if !(← hasFile files path) then
    throw
      { kind := .commandFile
        message := "Tree file not found: " ++ path.text
        hint := some "Pass the path of a JSON file holding the component list"
        context := pathContext path }
  (Tree.loadFile files path).mapError fun p =>
    if p.kind = .treeLoad then
      { kind := .commandValidation
        message := "Invalid component tree in " ++ path.name
        hint := some p.message
        context := pathContext path
        cause := some p }
    else p

namespace SiteArguments

/-- The name of the project: the one that is given, or the name of the tree's file. -/
def projectName (a : SiteArguments) (source : Path) : Text := a.name.getD source.stem

/-- The theme that is asked for. -/
def themeStore (a : SiteArguments) (config : Config) : Except Problem Theme.Store :=
  (Theme.Store.ofName ((a.theme.map String.ofList).getD config.defaults.theme)).mapError fun fault =>
    { kind := .commandConfig
      message := fault.message
      hint := fault.hint
      cause := some (.ofThemeFault fault) }

/-- The directory that the site goes to. -/
def outPath (a : SiteArguments) (files : Files) (config : Config) : Except Problem Path :=
  match a.outDir with
  | none => .ok config.defaults.outDir
  | some t => if (Path.ofText t).isAbsolute then .ok (.ofText t) else resolved files t

end SiteArguments

/-! Commands. -/

/-- The line that reports a success. -/
def successLine (message : Text) : Text := Char.ofNat 0x2713 :: ' ' :: message

/-- The line that warns. -/
def warningLine (message : Text) : Text := "! " ++ message

/-- A command that came to a problem. -/
def failed (files : Files) (notices : List Notice) (p : Problem) : Outcome :=
  { files, notices, result := .error p }

/-- A command that came to its end. -/
def succeeded (files : Files) (notices : List Notice) (message : Text) : Outcome :=
  { files, notices, result := .ok ([successLine message], 0) }

/-- The generation of the site that is to be built. -/
def buildRequest (files : Files) (config : Config) (a : SiteArguments) :
    Except Problem Site.Request := do
  let source ← resolved files a.tree
  let tree ← loadTree files source
  let included := a.includeTheme || config.defaults.includeTheme
  let declared ← if included then do
      let store ← a.themeStore config
      pure (some store.propertyTexts)
    else pure none
  pure
    { tree
      name := a.projectName source
      options :=
        { includeTheme := included
          themeVariables := declared
          pageCode := some config.pageCode }
      style := configuredStyle config }

/-- Writes the page and the stylesheet of a site. -/
def writeSite (files : Files) (directory : Path) (site : Site.Texts) : Files × Option FileFault :=
  files.writeBelow directory
    [(directory.child "index.html", .text site.fullPage),
      (directory.child "styles.css", .text site.css)]

/-- Builds a site. -/
def buildSite (files : Files) (config : Config) (a : SiteArguments) : Outcome :=
  match buildRequest files config a with
  | .error p => failed files [] p
  | .ok request =>
      let notices := Site.generateNotices request
      match Site.generate request, a.outPath files config with
      | .error fault, _ => failed files notices (.ofWidgetFault fault)
      | _, .error p => failed files notices p
      | .ok site, .ok directory =>
          match writeSite files directory site with
          | (after, none) => succeeded after notices ("Static site generated in " ++ directory.text)
          | (after, some fault) =>
              let p := Problem.ofFileFault fault
              failed after notices
                (if p.kind.isOs then
                  p.wrap .commandBuild ("Could not write site to " ++ directory.text) none none []
                else p)

/-- The export of the site that is to be packed, and the directory for it. -/
def packRequest (files : Files) (config : Config) (a : SiteArguments) (includeConfig : Bool)
    (platform : Option Text) : Except Problem (Archive.Request × Path) := do
  let source ← resolved files a.tree
  let tree ← loadTree files source
  let store ← a.themeStore config
  let directory ← a.outPath files config
  pure
    ({ tree
       name := a.projectName source
       options :=
         { includeTheme := a.includeTheme || config.defaults.includeTheme
           includeConfig := includeConfig || config.defaults.includeConfig
           platform := some ((platform.map String.ofList).getD config.defaults.platform) }
       theme := some store
       editorCode := some config.pageCode
       style := configuredStyle config },
      directory)

/-- Packs a site. -/
def packSite (files : Files) (config : Config) (a : SiteArguments) (includeConfig : Bool)
    (platform : Option Text) : Outcome :=
  match packRequest files config a includeConfig platform with
  | .error p => failed files [] p
  | .ok (request, directory) =>
      let result := request.deliver (Archive.directorySink directory) files
      match result.outcome with
      | .error p => failed result.state result.notices p
      | .ok exported =>
          succeeded result.state result.notices ("Project exported to " ++ exported.location)

/-- What a file is taken for: the kind that is asked for, or the one that its suffix says. -/
def fileKind (path : Path) (kind : Option Text) : Formatting.Kind :=
  match kind with
  | some name => .ofName (String.ofList name)
  | none => if Text.lower path.suffix = ".css" then .stylesheet else .markup

/-- The text of the file that is to be laid out. -/
def formatSource (files : Files) (path : Path) : Except Problem Text := do
  if !(← hasFile files path) then
    throw { kind := .commandFile, message := "File not found: " ++ path.text }
  files.readText path

/-- The problem of a file that has no layout. -/
def formatProblem (path : Path) (errors : List Text) : Problem :=
  { kind := .commandRuntime
    message := "Could not format " ++ path.name
    code := some "CLI_FORMAT_ERROR"
    hint := some (Text.joinWith "; " errors) }

/-- Lays out a file in place, or only says whether that would change it. -/
def formatFile (files : Files) (config : Config) (file : Text) (kind : Option Text) (check : Bool) :
    Outcome :=
  let source : Except Problem (Path × Text) := do
    let path ← resolved files file
    pure (path, ← formatSource files path)
  match source with
  | .error p => failed files [] p
  | .ok (path, t) =>
      let o := Formatting.outcome (fileKind path kind) (configuredStyle config) t
      if !o.success then failed files [] (formatProblem path o.errors)
      else if check then
        if o.changed then
          { files, result := .ok ([warningLine (path.name ++ " is not formatted")], 1) }
        else succeeded files [] (path.name ++ " is formatted")
      else if o.changed then
        match files.write path (.text o.text) with
        | .error fault => failed files [] (.ofFileFault fault)
        | .ok after => succeeded after [] ("Formatted " ++ path.name)
      else succeeded files [] (path.name ++ " already formatted")

/-- Lists the themes and marks the one that a configuration sets. -/
def listThemes (files : Files) (config : Config) : Outcome :=
  let line (name : String) : Text :=
    "  " ++ (if name = config.defaults.theme then "*" else " ") ++ " " ++ name
  let title : Text := "Available themes:"
  { files, result := .ok (title :: Theme.Preset.labels.map line, 0) }

/-- Runs a command. -/
def Action.run (files : Files) (config : Config) : Action → Outcome
  | .build a => buildSite files config a
  | .pack a includeConfig platform => packSite files config a includeConfig platform
  | .format file kind check => formatFile files config file kind check
  | .themes => listThemes files config

/-! Runs. -/

/-- The report of a problem, which at length also has a place for where it came up. -/
def reported (verbose : Bool) (p : Problem) : Text :=
  p.report verbose ++ (if verbose then "\n\nTraceback:\n" else "\n")

/-- The run that a command makes. -/
def Outcome.toRun (o : Outcome) (time : Text) (verbose : Bool) (level : Level) : Run :=
  let told := Text.page ((Notice.atLeast level o.notices).map (Notice.timedLine time))
  match o.result with
  | .ok (ls, status) =>
      { files := o.files, output := Text.page ls, complaint := told, ending := .ok status }
  | .error p => { files := o.files, complaint := told ++ reported verbose p, ending := .ok 1 }

/-- A run that a problem ends. -/
def escaped (files : Files) (p : Problem) : Run := { files, ending := .error p }

/-- A run that ends with the reading of its command line. -/
def stopped (files : Files) (stop : Stop) : Run :=
  { files, output := stop.output, complaint := stop.complaint, ending := .ok stop.status }

/-- Runs the command that arguments ask for, in a workspace with a configuration file. -/
def runArguments (environment : Environment) (files : Files) (root : Path) (asked : Option Path)
    (arguments : Arguments) : Run :=
  let verbose := isVerbose environment arguments
  match arguments.action with
  | none => { files, output := mainForm.help, ending := .ok 1 }
  | some action =>
      match Config.load files root asked environment.level with
      | .error p =>
          if p.kind = .config then
            { files
              complaint := reported verbose
                { kind := .commandConfig, message := p.message, hint := p.hint }
              ending := .ok 1 }
          else escaped files p
      | .ok config =>
          match chosenLevel arguments.level config.logLevel with
          | .error p => escaped files p
          | .ok level => (action.run files config).toRun environment.time verbose level

/-- Runs the program. -/
def run (environment : Environment) (files : Files) (line : List Text) : Run :=
  match Locations.read line with
  | .error stop => stopped files stop
  | .ok locations =>
      match locations.resolve files with
      | .error p => escaped files p
      | .ok (root, asked) =>
          match Arguments.read line with
          | .error stop => stopped files stop
          | .ok arguments => runArguments environment files root asked arguments

end StaticSite.Command
