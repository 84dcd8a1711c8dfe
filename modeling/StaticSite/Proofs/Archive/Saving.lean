import StaticSite.Archive.Export
import StaticSite.Proofs.Text.Lines
import StaticSite.Proofs.Text.LowerCase
import StaticSite.Proofs.Text.Squeeze
import StaticSite.Proofs.Workspace.Files

/-! # Saving an archive

A sink for a directory makes the directory and writes one file. The name of that file comes from the
name of the project, and a path is made of it, so that it is the name of the file only when it has no
slash: every slash leads on to another place.
-/

namespace StaticSite

/-! ## Making directories -/

namespace Files

variable {files between after : Files} {path : Path} {place : Place}

/-- Whether the only change is that directories stand where nothing stood. -/
def Gains (files after : Files) : Prop :=
  ∀ place, after.node? place = files.node? place ∨
    files.node? place = none ∧ after.node? place = some .directory

theorem Gains.refl (files : Files) : files.Gains files := fun _ => .inl rfl

theorem Gains.trans (first : files.Gains between) (second : between.Gains after) :
    files.Gains after := by
  intro place
  rcases first place with same | ⟨empty, made⟩
  · rw [← same]
    exact second place
  · rcases second place with kept | ⟨none, -⟩
    · exact .inr ⟨empty, kept.trans made⟩
    · rw [made] at none
      cases none

/-- Whether a path leads to a directory. -/
def IsDirectory (files : Files) (path : Path) : Prop :=
  ∃ place, files.place path = .ok place ∧ files.node? place = some .directory

theorem gains_makeDirectory (made : files.makeDirectory path = .ok after) :
    files.Gains after ∧ after.IsDirectory path := by
  unfold makeDirectory at made
  cases led : files.place path with
  | error cause => simp [led] at made
  | ok place =>
    cases found : files.node? place with
    | some node => simp [led, found] at made
    | none =>
      simp only [led, found, Except.ok.injEq] at made
      subst after
      have free : files.node? place ≠ some .directory := by simp [found]
      refine ⟨fun other => ?_, place, place_put free led, ?_⟩
      · by_cases same : other = place
        · subst same
          exact .inr ⟨found, by rw [node?_put, if_neg (place_ne_nil free), if_pos rfl]⟩
        · left
          rw [node?_put]
          by_cases top : other = []
          · rw [if_pos top, top]
            rfl
          · rw [if_neg top, if_neg same]
      · rw [node?_put, if_neg (place_ne_nil free), if_pos rfl]

theorem isDirectory_of_find (found : files.find path = .ok .directory) : files.IsDirectory path := by
  unfold find at found
  cases led : files.place path with
  | error cause => simp [led] at found
  | ok place =>
    cases here : files.node? place with
    | none => simp [led, here] at found
    | some node =>
      simp only [led, here, Except.ok.injEq] at found
      exact ⟨place, led, found ▸ here⟩

theorem gains_requireDirectory (required : files.requireDirectory path = .ok after) :
    files.Gains after ∧ after.IsDirectory path := by
  unfold requireDirectory at required
  split at required
  · next made =>
    obtain rfl := Except.ok.inj required
    exact gains_makeDirectory made
  · split at required
    · cases required
    · next found _ =>
      obtain rfl := Except.ok.inj required
      exact ⟨.refl files, isDirectory_of_find found⟩
    · cases required

/-- Making the directories on the way to a path adds nothing but directories. -/
theorem gains_requireAll {root : Text} {parts : List Text}
    (required : files.requireAll root parts = (after, none)) :
    files.Gains after ∧ after.IsDirectory ⟨root, parts.reverse⟩ := by
  induction parts generalizing files after with
  | nil =>
    rw [requireAll] at required
    split at required
    · next made =>
      obtain rfl := congrArg Prod.fst required
      exact gains_requireDirectory made
    · cases congrArg Prod.snd required
  | cons part above ih =>
    rw [requireAll] at required
    split at required
    · next made =>
      obtain rfl := congrArg Prod.fst required
      exact gains_requireDirectory made
    · split at required
      · cases congrArg Prod.snd required
      · split at required
        · cases congrArg Prod.snd required
        · next between led =>
          split at required
          · next made =>
            obtain rfl := congrArg Prod.fst required
            obtain ⟨more, isDirectory⟩ := gains_requireDirectory made
            exact ⟨(ih led).1.trans more, isDirectory⟩
          · cases congrArg Prod.snd required

/-- One file below a directory is written at one place, and elsewhere there are at most new
directories. -/
theorem writeBelow_singleton {directory : Path} {content : FileContent}
    (written : files.writeBelow directory [(path, content)] = (after, none)) :
    after.IsDirectory directory ∧ ∃ place, after.place path = .ok place ∧
      after.node? place = some (.file content) ∧
      ∀ other, other ≠ place → after.node? other = files.node? other ∨
        files.node? other = none ∧ after.node? other = some .directory := by
  rw [writeBelow] at written
  cases made : files.makeDirectories directory with
  | mk between problem =>
    rw [made] at written
    cases problem with
    | some fault => cases congrArg Prod.snd written
    | none =>
      obtain ⟨gains, base, ledBase, isDirectory⟩ := gains_requireAll made
      rw [List.reverse_reverse] at ledBase
      simp only [writeAll] at written
      cases wrote : between.write path content with
      | error fault =>
        rw [wrote] at written
        cases congrArg Prod.snd written
      | ok last =>
        rw [wrote] at written
        obtain rfl : last = after := congrArg Prod.fst written
        obtain ⟨place, led, free, rfl⟩ := write_eq_ok_iff.mp wrote
        refine ⟨⟨base, place_put free ledBase, node?_put_directory free isDirectory⟩, place,
          place_put free led, ?_, fun other apart => ?_⟩
        · rw [node?_put, if_neg (place_ne_nil free), if_pos rfl]
        · rw [node?_put]
          by_cases top : other = []
          · left
            rw [if_pos top, top]
            rfl
          · rw [if_neg top, if_neg apart]
            exact gains other

end Files

/-! ## Slashes in names -/

namespace Text

theorem mem_lowerAfter_of_mem {before t : Text} {c : Char} (ascii : c.toNat < 128)
    (low : lowerChar c = c) (member : c ∈ t) : c ∈ lowerAfter before t := by
  induction t generalizing before with
  | nil => cases member
  | cons d rest ih =>
    rw [lowerAfter, List.mem_append]
    rcases List.mem_cons.mp member with rfl | later
    · left
      rw [lowerBetween_ascii ascii, low]
      exact List.mem_cons_self
    · exact .inr (ih later)

end Text

namespace Archive

/-- A slash stands in the name of an archive where one stands in the name of the project. -/
theorem slash_mem_fileName_iff (name : Text) : '/' ∈ fileName name ↔ '/' ∈ name := by
  have lower : '/' ∈ Text.lower name ↔ '/' ∈ name := by
    constructor
    · intro member
      rcases Text.mem_lower member with here | ⟨range, -⟩
      · exact here
      · exact absurd range (by decide)
    · exact Text.mem_lowerAfter_of_mem (by decide) (by decide)
  have squeezed : '/' ∈ Text.squeeze isBlank (Text.lower name) ↔ '/' ∈ Text.lower name :=
    Text.mem_squeeze_iff (by decide) (by decide) _
  rw [fileName, List.mem_append, or_iff_left (by decide), slug, List.mem_map, ← lower, ← squeezed]
  constructor
  · rintro ⟨c, member, same⟩
    split at same
    · cases same
    · exact same ▸ member
  · exact fun member => ⟨'/', member, rfl⟩

/-- The name of an archive without a slash is a name in any directory. -/
theorem isName_fileName {name : Text} (inside : '/' ∉ fileName name) : Files.IsName (fileName name) := by
  have ending : ∃ front, fileName name = front ++ ".zip".toList := ⟨_, rfl⟩
  obtain ⟨front, whole⟩ := ending
  have some : fileName name ≠ [] := by simp [whole]
  have notDot : fileName name ≠ ['.'] := by
    intro same
    have length := congrArg List.length (whole.symm.trans same)
    simp at length
  refine ⟨?_, fun same => ?_⟩
  · have root : Path.rootOf (fileName name) = [] := by
      obtain ⟨c, rest, cons⟩ := List.exists_cons_of_ne_nil some
      rw [cons] at inside ⊢
      have other : (c == '/') = false := by
        simp only [List.mem_cons, not_or] at inside
        simpa using Ne.symm inside.1
      simp [Path.rootOf, other]
    rw [Path.ofText, root, Text.splitAt_of_not_mem inside]
    simp [some, notDot]
  · have length := congrArg List.length (whole.symm.trans same)
    simp at length

/-- The path of the name of an archive ends in a name without a slash. -/
theorem parts_fileName (name : Text) :
    ∃ front last, (Path.ofText (fileName name)).parts = front ++ [last] ∧ '/' ∉ last ∧
      last ≠ ['.', '.'] := by
  have inside : '/' ∉ (".zip" : Text) := by decide
  obtain ⟨front, last, pieces⟩ := Text.splitAt_append_of_not_mem (slug name) inside
  refine ⟨front.filter fun part => !part.isEmpty && part != ['.'], last ++ ".zip", ?_, ?_, ?_⟩
  · have kept : (!(last ++ ".zip".toList).isEmpty && last ++ ".zip".toList != ['.']) = true := by
      cases last <;> simp
    rw [Path.ofText, fileName, pieces, List.filter_append, List.filter_singleton, kept]
    rfl
  · exact Text.not_mem_of_mem_splitAt (pieces ▸ List.mem_append_right front List.mem_cons_self)
  · intro same
    have length := congrArg List.length same
    simp at length

/-- Wherever the name of an archive leads from a directory, the last name on the way has no slash. -/
theorem place_child_fileName {files : Files} {directory : Path} {name : Text} {place : Place}
    (led : files.place (directory.child (fileName name)) = .ok place) :
    ∃ above last, place = above ++ [last] ∧ '/' ∉ last := by
  obtain ⟨front, last, parts, inside, down⟩ := parts_fileName name
  have ends : ∃ before, (directory.child (fileName name)).parts = before ++ [last] := by
    unfold Path.child Path.join
    split
    · exact ⟨front, parts⟩
    · exact ⟨directory.parts ++ front, by rw [parts, List.append_assoc]⟩
  obtain ⟨before, ends⟩ := ends
  obtain ⟨-, followed⟩ := Files.place_eq_ok_iff.mp led
  rw [ends, Files.follow_append] at followed
  cases above : files.follow (Files.start files (directory.child (fileName name)).root) before with
  | error cause =>
    rw [above] at followed
    cases followed
  | ok between =>
    rw [above] at followed
    exact ⟨between, last, Files.eq_of_follow_singleton down followed, inside⟩

/-! ## Saving -/

/-- An export to a directory succeeds when the site is generated and its archive is written. -/
theorem deliver_eq_ok {r : Request} {directory : Path} {files : Files} {exported : Exported}
    (saved : (r.deliver (directorySink directory) files).outcome = .ok exported) :
    ∃ site, Site.generate r.site = .ok site ∧
      exported = ⟨⟨fileName r.name, ofFiles (r.files site)⟩,
        (directory.child (fileName r.name)).text⟩ ∧
      files.writeBelow directory
        [(directory.child (fileName r.name), .archive (ofFiles (r.files site)))] =
          ((r.deliver (directorySink directory) files).state, none) := by
  cases generated : Site.generate r.site with
  | error fault =>
    have unpacked : r.pack = .error fault := by
      rw [Request.pack, generated]
      rfl
    rw [Request.deliver, unpacked] at saved
    cases saved
  | ok site =>
    have packed : r.pack = .ok ⟨fileName r.name, ofFiles (r.files site)⟩ := by
      rw [Request.pack, generated]
      rfl
    simp only [Request.deliver, packed, directorySink] at saved ⊢
    cases wrote : files.writeBelow directory
        [(directory.child (fileName r.name), .archive (ofFiles (r.files site)))] with
    | mk after problem =>
      cases problem with
      | some fault =>
        rw [wrote] at saved
        cases saved
      | none =>
        rw [wrote] at saved
        exact ⟨site, rfl, (Except.ok.inj saved).symm, by rw [wrote]⟩

/-- An export that succeeds has made its directory and written the archive as one file: at every
other place stands what stood there, or a new directory. That file is the one of the archive's name
directly below the directory exactly when the name of the project has no slash. -/
theorem saved_below_iff {r : Request} {directory : Path} {files : Files} {exported : Exported}
    (saved : (r.deliver (directorySink directory) files).outcome = .ok exported) :
    exported.package.fileName = fileName r.name ∧
    exported.location = (directory.child (fileName r.name)).text ∧
    ∃ after base place, (r.deliver (directorySink directory) files).state = after ∧
      after.place directory = .ok base ∧ after.node? base = some .directory ∧
      after.place (directory.child (fileName r.name)) = .ok place ∧
      after.node? place = some (.file (.archive exported.package.entries)) ∧
      (∀ other, other ≠ place → after.node? other = files.node? other ∨
        files.node? other = none ∧ after.node? other = some .directory) ∧
      (place = base ++ [fileName r.name] ↔ '/' ∉ r.name) := by
  obtain ⟨site, -, rfl, written⟩ := deliver_eq_ok saved
  obtain ⟨⟨base, ledBase, isDirectory⟩, place, led, archived, elsewhere⟩ :=
    Files.writeBelow_singleton written
  refine ⟨rfl, rfl, _, base, place, rfl, ledBase, isDirectory, led, archived, elsewhere, ?_⟩
  rw [← slash_mem_fileName_iff]
  constructor
  · obtain ⟨above, last, whole, inside⟩ := place_child_fileName led
    intro below
    rwa [← (List.append_inj' (whole.symm.trans below) rfl).2 |> List.singleton_inj.mp]
  · intro inside
    obtain ⟨above, ledAbove, whole⟩ := Files.place_child (isName_fileName inside) led
    rw [whole, Except.ok.inj (ledAbove.symm.trans ledBase)]

/-- The export of a page without components to the directory `out`. -/
def emptyExport (name : String) : Result Files :=
  Request.deliver { tree := [], name := name } (directorySink (.ofText "out")) {}

theorem saved_below_iff_mySite : ∃ exported, (emptyExport "My Site").outcome = .ok exported ∧
    (emptyExport "My Site").state.node? ["out", "my-site.zip"] =
      some (.file (.archive exported.package.entries)) := by
  have saved : (emptyExport "My Site").outcome = .ok _ := rfl
  obtain ⟨-, -, after, base, place, rfl, led, -, -, archived, -, below⟩ := saved_below_iff saved
  obtain rfl : ["out".toList] = base := Except.ok.inj ((rfl : _ = Except.ok _).symm.trans led)
  rw [below.mpr (by decide)] at archived
  exact ⟨_, saved, archived⟩

/-- An export of a project whose name leads up leaves the directory. -/
theorem saved_above : ∃ exported, (emptyExport "../up").outcome = .ok exported ∧
    (emptyExport "../up").state.place (.ofText "out") = .ok ["out"] ∧
    (emptyExport "../up").state.node? (["out".toList] ++ [fileName "../up"]) = none ∧
    (emptyExport "../up").state.node? ["up.zip"] =
      some (.file (.archive exported.package.entries)) :=
  ⟨_, rfl, rfl, rfl, rfl⟩

end Archive

end StaticSite
