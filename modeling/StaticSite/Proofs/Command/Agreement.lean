import StaticSite.Command.Run
import StaticSite.Proofs.Archive.Saving
import StaticSite.Proofs.Result

/-! # Building and packing agree

Both commands load the same tree and set up the generation of its site on their own: one resolves
the theme and the configured code itself, the other hands them to the export as providers. The site
that they generate is the same, and so are the page and the stylesheet that they write.
-/

namespace StaticSite

namespace Command

open Workspace (Config)

variable {files : Files} {config : Config} {a b : SiteArguments}

/-- What two commands share: everything but the directory that they write to. -/
structure SiteArguments.Agree (a b : SiteArguments) : Prop where
  tree : a.tree = b.tree
  name : a.name = b.name
  includeTheme : a.includeTheme = b.includeTheme
  theme : a.theme = b.theme

/-- Whether a command includes its theme: it is asked to, or its workspace says so. -/
def SiteArguments.includes (a : SiteArguments) (config : Config) : Bool :=
  a.includeTheme || config.defaults.includeTheme

/-- What goes into a site that is built. -/
theorem buildRequest_eq_ok {built : Site.Request}
    (building : buildRequest files config a = .ok built) :
    ∃ source tree declared, resolved files a.tree = .ok source ∧ loadTree files source = .ok tree ∧
      (if a.includes config then (a.themeStore config).map (some ·.propertyTexts) else .ok none) =
        .ok declared ∧
      built =
        { tree
          name := a.projectName source
          options :=
            { includeTheme := a.includes config
              themeVariables := declared
              pageCode := some config.pageCode }
          style := configuredStyle config } := by
  unfold buildRequest at building
  obtain ⟨source, found, building⟩ := exists_of_bind_eq_ok building
  obtain ⟨tree, loaded, building⟩ := exists_of_bind_eq_ok building
  dsimp only at building
  split at building
  next included =>
    obtain ⟨store, stored, building⟩ := exists_of_bind_eq_ok building
    refine ⟨source, tree, some store.propertyTexts, found, loaded, ?_, (Except.ok.inj building).symm⟩
    rw [SiteArguments.includes, if_pos included, stored]
    rfl
  next excluded =>
    refine ⟨source, tree, none, found, loaded, ?_, (Except.ok.inj building).symm⟩
    rw [SiteArguments.includes, if_neg excluded]

/-- What goes into a site that is packed. -/
theorem packRequest_eq_ok {includeConfig : Bool} {platform : Option Text}
    {packed : Archive.Request} {directory : Path}
    (packing : packRequest files config b includeConfig platform = .ok (packed, directory)) :
    ∃ source tree store, resolved files b.tree = .ok source ∧ loadTree files source = .ok tree ∧
      b.themeStore config = .ok store ∧ b.outPath files config = .ok directory ∧
      packed.site =
        { tree
          name := b.projectName source
          options :=
            { includeTheme := b.includes config
              themeVariables := if b.includes config then some store.propertyTexts else none
              pageCode := some config.pageCode }
          style := configuredStyle config } := by
  unfold packRequest at packing
  obtain ⟨source, found, packing⟩ := exists_of_bind_eq_ok packing
  obtain ⟨tree, loaded, packing⟩ := exists_of_bind_eq_ok packing
  obtain ⟨store, stored, packing⟩ := exists_of_bind_eq_ok packing
  obtain ⟨target, led, packing⟩ := exists_of_bind_eq_ok packing
  obtain ⟨rfl, rfl⟩ := Prod.mk.inj (Except.ok.inj packing)
  exact ⟨source, tree, store, found, loaded, stored, led, rfl⟩

/-- The site that is packed is the one that is built. -/
theorem site_eq_of_agree (same : a.Agree b) {includeConfig : Bool} {platform : Option Text}
    {built : Site.Request} {packed : Archive.Request} {directory : Path}
    (building : buildRequest files config a = .ok built)
    (packing : packRequest files config b includeConfig platform = .ok (packed, directory)) :
    packed.site = built := by
  obtain ⟨source, tree, declared, found, loaded, chosen, rfl⟩ := buildRequest_eq_ok building
  obtain ⟨source', tree', store, found', loaded', stored, -, site⟩ := packRequest_eq_ok packing
  rw [← same.tree, found] at found'
  obtain rfl := Except.ok.inj found'
  rw [loaded] at loaded'
  obtain rfl := Except.ok.inj loaded'
  have name : b.projectName source = a.projectName source := by
    rw [SiteArguments.projectName, SiteArguments.projectName, same.name]
  have included : b.includes config = a.includes config := by
    rw [SiteArguments.includes, SiteArguments.includes, same.includeTheme]
  have shared : a.themeStore config = .ok store := by
    rw [← stored, SiteArguments.themeStore, SiteArguments.themeStore, same.theme]
  have chosen : declared = if a.includes config then some store.propertyTexts else none := by
    rw [shared] at chosen
    split at chosen
    next on => exact (Except.ok.inj chosen).symm.trans (if_pos on).symm
    next off => exact (Except.ok.inj chosen).symm.trans (if_neg off).symm
  rw [site, name, included, chosen]

/-- The paths of the files around a site. -/
def scaffoldPaths : List Text :=
  ["package.json", "README.md", ".gitignore", "vercel.json", "netlify.toml"]

theorem path_of_platformConfig? {platform : String} {file : Archive.File}
    (found : Archive.platformConfig? platform = some file) : file.path ∈ scaffoldPaths := by
  unfold Archive.platformConfig? at found
  split at found
  next =>
    have path : Archive.vercelConfig.path = "vercel.json".toList := rfl
    rw [← Option.some.inj found, path]
    decide
  next =>
    have path : Archive.netlifyConfig.path = "netlify.toml".toList := rfl
    rw [← Option.some.inj found, path]
    decide
  next => cases found

theorem path_of_mem_projectFiles {name : Text} {platform : Option String} {file : Archive.File}
    (member : file ∈ Archive.projectFiles name platform) : file.path ∈ scaffoldPaths := by
  have fixed : ∀ file ∈ [Archive.manifest name, Archive.readme name, Archive.ignoreList],
      file.path ∈ scaffoldPaths := by
    have manifest : (Archive.manifest name).path = "package.json".toList := rfl
    have readme : (Archive.readme name).path = "README.md".toList := rfl
    have ignoreList : Archive.ignoreList.path = ".gitignore".toList := rfl
    simp only [List.forall_mem_cons, manifest, readme, ignoreList]
    decide
  rw [Archive.projectFiles, List.mem_append] at member
  cases member with
  | inl always => exact fixed file always
  | inr hosting =>
    obtain ⟨platform, -, config⟩ := Option.bind_eq_some_iff.mp (Option.mem_toList.mp hosting)
    exact path_of_platformConfig? config

/-- No file around a site stands in the place of one of its own. -/
theorem filter_projectFiles {path : Text}
    (own : ∀ other ∈ scaffoldPaths, other.takeWhile (· != Char.ofNat 0) ≠ path) (name : Text)
    (platform : Option String) :
    (Archive.ofFiles (Archive.projectFiles name platform)).filter (·.path = path) = [] := by
  rw [List.filter_eq_nil_iff]
  intro entry member
  obtain ⟨file, inside, rfl⟩ := List.mem_map.mp member
  have apart := own file.path (path_of_mem_projectFiles inside)
  rw [decide_eq_true_eq]
  exact apart

/-- The page and the stylesheet are there once each, whatever files stand around them. -/
theorem filter_files (r : Archive.Request) (site : Site.Texts) :
    (Archive.ofFiles (r.files site)).filter (·.path = "index.html".toList) =
        [⟨"index.html", site.fullPage⟩] ∧
      (Archive.ofFiles (r.files site)).filter (·.path = "styles.css".toList) =
        [⟨"styles.css", site.css⟩] := by
  have others {path : Text}
      (own : ∀ other ∈ scaffoldPaths, other.takeWhile (· != Char.ofNat 0) ≠ path) :
      (Archive.ofFiles (if r.options.includeConfig then
        Archive.projectFiles r.name r.options.platform else [])).filter (·.path = path) = [] := by
    split
    · exact filter_projectFiles own r.name r.options.platform
    · rfl
  have whole : Archive.ofFiles (r.files site) =
      [⟨"index.html", site.fullPage⟩, ⟨"styles.css", site.css⟩] ++
        Archive.ofFiles (if r.options.includeConfig then
          Archive.projectFiles r.name r.options.platform else []) := List.map_append ..
  rw [whole, List.filter_append, List.filter_append, others (by decide), others (by decide)]
  constructor <;> rfl

/-- The page and the stylesheet that are built are read where they were written. -/
theorem read_writeSite {directory : Path} {site : Site.Texts} {after : Files}
    (written : writeSite files directory site = (after, none)) :
    after.read (directory.child "index.html") = .ok (.text site.fullPage) ∧
      after.read (directory.child "styles.css") = .ok (.text site.css) := by
  have names : Files.IsName "index.html".toList ∧ Files.IsName "styles.css".toList := by
    unfold Files.IsName
    decide
  have found := @Files.read_writeBelow files after directory
    [("index.html", .text site.fullPage), ("styles.css", .text site.css)]
    (List.forall_mem_cons.mpr ⟨names.1, List.forall_mem_singleton.mpr names.2⟩) (by simp) written
  exact ⟨found _ (.head _), found _ (.tail _ (.head _))⟩

/-- A build that comes to its end has written the site that was asked for. -/
theorem buildSite_eq_ok {told : List Text × Nat}
    (done : (buildSite files config a).result = .ok told) :
    ∃ request site directory after, buildRequest files config a = .ok request ∧
      Site.generate request = .ok site ∧ a.outPath files config = .ok directory ∧
      writeSite files directory site = (after, none) ∧ (buildSite files config a).files = after := by
  unfold buildSite at done ⊢
  cases requested : buildRequest files config a with
  | error p =>
    rw [requested] at done
    cases done
  | ok request =>
    simp only [requested] at done ⊢
    cases generated : Site.generate request with
    | error fault =>
      rw [generated] at done
      cases done
    | ok site =>
      cases led : a.outPath files config with
      | error p =>
        rw [generated, led] at done
        cases done
      | ok directory =>
        simp only [generated, led] at done ⊢
        cases wrote : writeSite files directory site with
        | mk after problem =>
          cases problem with
          | some fault =>
            rw [wrote] at done
            cases done
          | none => exact ⟨request, site, directory, after, rfl, generated, rfl, wrote, rfl⟩

/-- Packing that comes to its end has written the archive of the site that was asked for. -/
theorem packSite_eq_ok {includeConfig : Bool} {platform : Option Text} {told : List Text × Nat}
    (done : (packSite files config b includeConfig platform).result = .ok told) :
    ∃ request directory site after,
      packRequest files config b includeConfig platform = .ok (request, directory) ∧
      Site.generate request.site = .ok site ∧
      files.writeBelow directory [(directory.child (Archive.fileName request.name),
        .archive (Archive.ofFiles (request.files site)))] = (after, none) ∧
      (packSite files config b includeConfig platform).files = after := by
  unfold packSite at done ⊢
  cases requested : packRequest files config b includeConfig platform with
  | error p =>
    rw [requested] at done
    cases done
  | ok pair =>
    obtain ⟨request, directory⟩ := pair
    simp only [requested] at done ⊢
    cases delivered : (request.deliver (Archive.directorySink directory) files).outcome with
    | error p =>
      rw [delivered] at done
      cases done
    | ok exported =>
      obtain ⟨site, generated, -, wrote⟩ := Archive.deliver_eq_ok delivered
      exact ⟨request, directory, site, _, rfl, generated, wrote, rfl⟩

/-- Building and packing the same tree with the same choices give the same site: what a build writes
as page and stylesheet is, text for text, what the archive that packing writes holds under these
names, once each. -/
theorem build_pack_agree (same : a.Agree b) {includeConfig : Bool} {platform : Option Text}
    {built packed : List Text × Nat}
    (building : (Action.run files config (.build a)).result = .ok built)
    (packing : (Action.run files config (.pack b includeConfig platform)).result = .ok packed) :
    ∃ (source directory archives : Path) (page sheet : Text) (entries : List Archive.Entry),
      resolved files a.tree = .ok source ∧ a.outPath files config = .ok directory ∧
      b.outPath files config = .ok archives ∧
      (Action.run files config (.build a)).files.read (directory.child "index.html") =
        .ok (.text page) ∧
      (Action.run files config (.build a)).files.read (directory.child "styles.css") =
        .ok (.text sheet) ∧
      (Action.run files config (.pack b includeConfig platform)).files.read
        (archives.child (Archive.fileName (a.projectName source))) = .ok (.archive entries) ∧
      entries.filter (·.path = "index.html".toList) = [⟨"index.html", page⟩] ∧
      entries.filter (·.path = "styles.css".toList) = [⟨"styles.css", sheet⟩] := by
  simp only [Action.run] at building packing ⊢
  obtain ⟨request, site, directory, after, requested, generated, led, wrote, left⟩ :=
    buildSite_eq_ok building
  obtain ⟨archive, archives, site', after', requested', generated', wrote', left'⟩ :=
    packSite_eq_ok packing
  have shared := site_eq_of_agree same requested requested'
  rw [shared, generated] at generated'
  obtain rfl := Except.ok.inj generated'
  obtain ⟨source, tree, declared, found, -, -, asked⟩ := buildRequest_eq_ok requested
  obtain ⟨-, -, -, -, -, -, led', -⟩ := packRequest_eq_ok requested'
  have name : archive.name = a.projectName source := by
    rw [asked] at shared
    exact congrArg Site.Request.name shared
  obtain ⟨page, sheet⟩ := read_writeSite wrote
  obtain ⟨pageEntry, sheetEntry⟩ := filter_files archive site
  have archived := Files.read_writeBelow_singleton wrote'
  rw [name] at archived
  rw [left, left']
  exact ⟨source, directory, archives, site.fullPage, site.css, _, found, led, led', page, sheet,
    archived, pageEntry, sheetEntry⟩

/-- A workspace with a tree of one heading. -/
def headingFiles : Files :=
  { here := ["w"]
    nodes := [(["w"], .directory),
      (["w", "t.json"], .file (.text "[\x7b\"id\":\"a\",\"type\":\"heading\"\x7d]"))] }

/-- The configuration of that workspace. -/
def headingConfig : Config :=
  { root := ⟨['/'], ["w"]⟩, defaults := { outDir := ⟨['/'], ["w", "build"]⟩ } }

/-- The arguments for that tree. -/
def headingArguments : SiteArguments := { tree := "t.json", includeTheme := true }

theorem build_pack_agree_heading : ∃ built packed page sheet entries,
    Action.run headingFiles headingConfig (.build headingArguments) = built ∧
      Action.run headingFiles headingConfig
        (.pack { headingArguments with outDir := some "out".toList } true "vercel".toList) = packed ∧
      built.files.read (.ofText "/w/build/index.html") = .ok (.text page) ∧
      built.files.read (.ofText "/w/build/styles.css") = .ok (.text sheet) ∧
      packed.files.read (.ofText "/w/out/t.zip") = .ok (.archive entries) ∧
      entries.filter (·.path = "index.html".toList) = [⟨"index.html", page⟩] ∧
      entries.filter (·.path = "styles.css".toList) = [⟨"styles.css", sheet⟩] := by
  have same : headingArguments.Agree { headingArguments with outDir := some "out".toList } :=
    ⟨rfl, rfl, rfl, rfl⟩
  have building := eq_ok_of_toOption (r := (Action.run headingFiles headingConfig
    (.build headingArguments)).result)
    (a := ([successLine "Static site generated in /w/build"], 0)) (by decide +kernel)
  have packing := eq_ok_of_toOption (r := (Action.run headingFiles headingConfig
    (.pack { headingArguments with outDir := some "out".toList } true "vercel".toList)).result)
    (a := ([successLine "Project exported to /w/out/t.zip"], 0)) (by decide +kernel)
  obtain ⟨source, directory, archives, page, sheet, entries, found, led, led', pageRead, sheetRead,
    archived, entry, entry'⟩ := build_pack_agree same building packing
  obtain rfl := Except.ok.inj found
  obtain rfl := Except.ok.inj led
  obtain rfl := Except.ok.inj led'
  exact ⟨_, _, page, sheet, entries, rfl, rfl, pageRead, sheetRead, archived, entry, entry'⟩

end Command

end StaticSite
