import StaticSite.Archive.Entry
import StaticSite.Report.Faults
import StaticSite.Site.Project
import StaticSite.Theme.Store

/-! # Exporting a site

An export generates a site, packs it with the files around it, and hands the archive to a sink,
which says where it put it. Whatever goes wrong on the way is one problem, and its cause says what
that was.
-/

namespace StaticSite.Archive

/-- What an export is given besides the sink. -/
structure Request where
  tree : List Component
  name : Text
  options : ExportOptions := {}
  theme : Option Theme.Store := none
  editorCode : Option PageCode := none
  style : Style := .standard

/-- The options of generation, where the theme and the editor fill in what the caller left out. -/
def Request.generation (r : Request) : GenerationOptions :=
  { includeTheme := r.options.includeTheme
    themeVariables :=
      match r.options.themeVariables with
      | some given => some given
      | none => if r.options.includeTheme then r.theme.map (·.propertyTexts) else none
    pageCode := r.options.pageCode.orElse fun _ => r.editorCode }

/-- The generation of the exported site. -/
def Request.site (r : Request) : Site.Request :=
  { tree := r.tree, name := r.name, options := r.generation, style := r.style }

/-- The files of an exported site. -/
def Request.files (r : Request) (site : Site.Texts) : List File :=
  [⟨"index.html", site.fullPage⟩, ⟨"styles.css", site.css⟩] ++
    (if r.options.includeConfig then projectFiles r.name r.options.platform else [])

/-- An archive with the name it is saved under. -/
structure Package where
  fileName : Text
  entries : List Entry
  deriving DecidableEq, Repr

/-- Generates and packs a site. -/
def Request.pack (r : Request) : Except Widget.Fault Package := do
  let site ← Site.generate r.site
  pure ⟨fileName r.name, ofFiles (r.files site)⟩

/-- What takes an archive: it changes a state and says where it put it, or what went wrong. -/
abbrev Sink (σ : Type) := Package → σ → σ × Except Problem Text

/-- An archive and the place where the sink put it. -/
structure Exported where
  package : Package
  location : Text

/-- The problem of an export that failed. -/
def failure (p : Problem) : Problem :=
  { kind := .exporting, message := "Failed to export project: " ++ p.text, cause := some p }

/-- The notice of an export that failed. -/
def failureNotice (name : Text) (p : Problem) : Notice :=
  ⟨.error, .archive, "Export of '" ++ name ++ "' failed: " ++ p.text⟩

/-- The notice of an export that succeeded. -/
def successNotice (package : Package) : Notice :=
  ⟨.info, .archive, "Exported " ++ package.fileName ++ " (" ++
    Text.ofNat package.entries.length ++ " files)"⟩

/-- What an export leaves: the state, its outcome, and what the stages had to tell. -/
structure Result (σ : Type) where
  state : σ
  outcome : Except Problem Exported
  notices : List Notice

/-- Exports a site to a sink. -/
def Request.deliver {σ : Type} (r : Request) (sink : Sink σ) (state : σ) : Result σ :=
  let told := Site.generateNotices r.site
  match r.pack with
  | .error fault =>
      let p := Problem.ofWidgetFault fault
      ⟨state, .error (failure p), told ++ [failureNotice r.name p]⟩
  | .ok package =>
      match sink package state with
      | (after, .error p) => ⟨after, .error (failure p), told ++ [failureNotice r.name p]⟩
      | (after, .ok location) =>
          ⟨after, .ok ⟨package, location⟩, told ++ [successNotice package]⟩

/-- Saves an archive into a directory, which is made if there is none. -/
def directorySink (directory : Path) : Sink Files := fun package files =>
  let target := directory.child package.fileName
  match files.writeBelow directory [(target, .archive package.entries)] with
  | (after, some fault) => (after, .error (.ofFileFault fault))
  | (after, none) => (after, .ok target.text)

end StaticSite.Archive
