import StaticSite.Workspace.Files

/-! # Reading what was written

Writing a file puts its content at one place and changes nothing else, so that what is written under
several names into one directory can be read back under each of them. The point is that a write
never puts a file where a directory stands: every path that could be followed before can be followed
after it and leads to the same place.
-/

namespace StaticSite.Files

variable {files after : Files} {path : Path} {place : Place} {content : FileContent}

/-! ## Places -/

theorem node?_put (files : Files) (place other : Place) (node : Node) :
    (files.put place node).node? other =
      if other = [] then some .directory
      else if other = place then some node
      else files.node? other := by
  cases other with
  | nil => rfl
  | cons name rest => exact Fields.lookup_put ..

/-- Where no directory stands, what is put leaves all directories where they are. -/
theorem node?_put_directory {node : Node} (free : files.node? place ≠ some .directory)
    {other : Place} (directory : files.node? other = some .directory) :
    (files.put place node).node? other = some .directory := by
  rw [node?_put]
  by_cases top : other = []
  · rw [if_pos top]
  · have apart : other ≠ place := by
      rintro rfl
      exact free directory
    rw [if_neg top, if_neg apart, directory]

/-- Following names one after the other is following the first of them and then the rest. -/
theorem follow_append (files : Files) (start : Place) (front back : List Text) :
    files.follow start (front ++ back) =
      (files.follow start front).bind fun between => files.follow between back := by
  induction front generalizing start with
  | nil => rfl
  | cons part rest ih =>
    simp only [List.cons_append, follow]
    split
    · rfl
    · rfl
    · split
      · exact ih _
      · split
        · rfl
        · exact ih _

/-- A path that can be followed leads to the same place after something is put where no directory
stands. -/
theorem follow_put {node : Node} (free : files.node? place ≠ some .directory) {start stop : Place}
    {parts : List Text} (followed : files.follow start parts = .ok stop) :
    (files.put place node).follow start parts = .ok stop := by
  induction parts generalizing start with
  | nil => exact followed
  | cons part rest ih =>
    simp only [follow] at followed ⊢
    cases here : files.node? start with
    | none => simp [here] at followed
    | some found =>
      cases found with
      | file content => simp [here] at followed
      | directory =>
        simp only [here, node?_put_directory free here] at followed ⊢
        split
        next up =>
          rw [if_pos up] at followed
          exact ih followed
        next down =>
          rw [if_neg down] at followed
          split
          next long =>
            rw [if_pos long] at followed
            cases followed
          next short =>
            rw [if_neg short] at followed
            exact ih followed

/-- Where paths with a root start. -/
def start (files : Files) (root : Text) : Place := if root = [] then files.here else []

theorem place_eq_ok_iff : files.place path = .ok place ↔
    (∀ part ∈ path.parts, Char.ofNat 0 ∉ part) ∧
      files.follow (files.start path.root) path.parts = .ok place := by
  have begins : (if path.isAbsolute then [] else files.here) = files.start path.root := by
    unfold start Path.isAbsolute
    cases path.root <;> rfl
  rw [Files.place, begins]
  by_cases nul : path.parts.any (·.elem (Char.ofNat 0)) = true
  · obtain ⟨part, member, bad⟩ := List.any_eq_true.mp nul
    rw [if_pos nul]
    constructor
    · intro led
      cases led
    · rintro ⟨clean, -⟩
      exact absurd (List.elem_iff.mp bad) (clean part member)
  · rw [if_neg nul]
    simp only [List.any_eq_true, not_exists, not_and, List.elem_iff] at nul
    exact ⟨fun led => ⟨nul, led⟩, fun led => led.2⟩

theorem place_put {node : Node} (free : files.node? place ≠ some .directory) {stop : Place}
    (led : files.place path = .ok stop) : (files.put place node).place path = .ok stop := by
  obtain ⟨clean, followed⟩ := place_eq_ok_iff.mp led
  exact place_eq_ok_iff.mpr ⟨clean, follow_put free followed⟩

/-! ## Files -/

theorem read_eq_ok_iff : files.read path = .ok content ↔
    ∃ place, files.place path = .ok place ∧ files.node? place = some (.file content) := by
  unfold read find
  cases files.place path with
  | error cause => simp
  | ok place =>
    cases found : files.node? place with
    | none => simp [found]
    | some node => cases node <;> simp [found]

theorem write_eq_ok_iff : files.write path content = .ok after ↔
    ∃ place, files.place path = .ok place ∧ files.node? place ≠ some .directory ∧
      after = files.put place (.file content) := by
  unfold write
  cases files.place path with
  | error cause => simp
  | ok place =>
    cases found : files.node? place with
    | none => simp [found, eq_comm]
    | some node => cases node <;> simp [found, eq_comm]

/-- No file stands at the top. -/
theorem place_ne_nil (free : files.node? place ≠ some .directory) : place ≠ [] := by
  rintro rfl
  exact free rfl

/-- What is written is read. -/
theorem read_write (written : files.write path content = .ok after) :
    after.read path = .ok content := by
  obtain ⟨place, led, free, rfl⟩ := write_eq_ok_iff.mp written
  refine read_eq_ok_iff.mpr ⟨place, place_put free led, ?_⟩
  rw [node?_put, if_neg (place_ne_nil free), if_pos rfl]

/-- What stands at another place is read as before. -/
theorem read_write_of_place_ne {other : Path} {held : FileContent}
    (written : files.write path content = .ok after) (found : files.read other = .ok held)
    (apart : files.place other ≠ files.place path) : after.read other = .ok held := by
  obtain ⟨place, led, free, rfl⟩ := write_eq_ok_iff.mp written
  obtain ⟨elsewhere, ledElsewhere, held⟩ := read_eq_ok_iff.mp found
  refine read_eq_ok_iff.mpr ⟨elsewhere, place_put free ledElsewhere, ?_⟩
  have different : elsewhere ≠ place := by
    rintro rfl
    exact apart (ledElsewhere.trans led.symm)
  have low : elsewhere ≠ [] := by
    rintro rfl
    cases held
  rw [node?_put, if_neg low, if_neg different, held]

/-! ## Files below a directory -/

/-- A text that names something directly below any directory. -/
def IsName (name : Text) : Prop := Path.ofText name = ⟨[], [name]⟩ ∧ name ≠ ['.', '.']

theorem child_of_isName {name : Text} (simple : IsName name) (directory : Path) :
    directory.child name = ⟨directory.root, directory.parts ++ [name]⟩ := by
  rw [Path.child, simple.1]
  rfl

/-- One name leads to the place right below. -/
theorem eq_of_follow_singleton {start : Place} {name : Text} (down : name ≠ ['.', '.'])
    (led : files.follow start [name] = .ok place) : place = start ++ [name] := by
  simp only [follow, if_neg down] at led
  split at led
  · cases led
  · cases led
  · split at led
    · cases led
    · exact (Except.ok.inj led).symm

/-- The place of a name below a directory ends in that name. -/
theorem place_child {directory : Path} {name : Text} (simple : IsName name)
    (led : files.place (directory.child name) = .ok place) :
    ∃ above, files.place directory = .ok above ∧ place = above ++ [name] := by
  rw [child_of_isName simple] at led
  obtain ⟨clean, followed⟩ := place_eq_ok_iff.mp led
  rw [follow_append] at followed
  cases above : files.follow (start files directory.root) directory.parts with
  | error cause =>
    rw [above] at followed
    cases followed
  | ok between =>
    rw [above] at followed
    have clean : ∀ part ∈ directory.parts, Char.ofNat 0 ∉ part := fun part member =>
      clean part (List.mem_append_left _ member)
    exact ⟨between, place_eq_ok_iff.mpr ⟨clean, above⟩, eq_of_follow_singleton simple.2 followed⟩

/-- Different names below a directory are different places. -/
theorem place_child_ne {directory : Path} {name other : Text} (simple : IsName name)
    (simpleOther : IsName other) (apart : name ≠ other)
    (led : files.place (directory.child name) = .ok place) :
    files.place (directory.child name) ≠ files.place (directory.child other) := by
  intro same
  obtain ⟨above, first, rfl⟩ := place_child simple led
  obtain ⟨above', second, whole⟩ := place_child simpleOther (same ▸ led)
  exact apart (by simpa using (List.append_inj' whole rfl).2)

/-- What stands under another name is read as before when files are written below a directory. -/
theorem read_writeAll_of_not_mem {directory : Path} {name : Text} {held : FileContent}
    (simple : IsName name) {contents : List (Text × FileContent)}
    (names : ∀ entry ∈ contents, IsName entry.1 ∧ entry.1 ≠ name)
    (found : files.read (directory.child name) = .ok held)
    (written : files.writeAll (contents.map fun entry => (directory.child entry.1, entry.2)) =
      (after, none)) : after.read (directory.child name) = .ok held := by
  induction contents generalizing files with
  | nil =>
    obtain rfl := congrArg Prod.fst written
    exact found
  | cons entry rest ih =>
    rw [List.map_cons, writeAll] at written
    cases wrote : files.write (directory.child entry.1) entry.2 with
    | error fault =>
      rw [wrote] at written
      cases congrArg Prod.snd written
    | ok between =>
      rw [wrote] at written
      obtain ⟨first, others⟩ := List.forall_mem_cons.mp names
      obtain ⟨place, led, -⟩ := read_eq_ok_iff.mp found
      have apart := place_child_ne simple first.1 first.2.symm led
      exact ih others (read_write_of_place_ne wrote found apart) written

/-- What is written under several names below a directory is read under each of them. -/
theorem read_writeAll {directory : Path} {contents : List (Text × FileContent)}
    (names : ∀ entry ∈ contents, IsName entry.1) (distinct : (contents.map (·.1)).Nodup)
    (written : files.writeAll (contents.map fun entry => (directory.child entry.1, entry.2)) =
      (after, none)) :
    ∀ entry ∈ contents, after.read (directory.child entry.1) = .ok entry.2 := by
  induction contents generalizing files with
  | nil => simp
  | cons entry rest ih =>
    rw [List.map_cons, writeAll] at written
    cases wrote : files.write (directory.child entry.1) entry.2 with
    | error fault =>
      rw [wrote] at written
      cases congrArg Prod.snd written
    | ok between =>
      rw [wrote] at written
      obtain ⟨first, others⟩ := List.forall_mem_cons.mp names
      obtain ⟨fresh, apart⟩ := List.nodup_cons.mp distinct
      refine List.forall_mem_cons.mpr ⟨?_, ih others apart written⟩
      refine read_writeAll_of_not_mem first (fun other member => ⟨others other member, ?_⟩)
        (read_write wrote) written
      intro same
      exact fresh (List.mem_map.mpr ⟨other, member, same⟩)

/-- Files below a directory are written once the directory is there. -/
theorem writeBelow_eq_none {directory : Path} {contents : List (Path × FileContent)}
    (written : files.writeBelow directory contents = (after, none)) :
    ∃ between : Files, between.writeAll contents = (after, none) := by
  rw [writeBelow] at written
  cases made : files.makeDirectories directory with
  | mk between problem =>
    rw [made] at written
    cases problem with
    | some fault => cases congrArg Prod.snd written
    | none => exact ⟨between, written⟩

/-- What is written below a directory is read there. -/
theorem read_writeBelow {directory : Path} {contents : List (Text × FileContent)}
    (names : ∀ entry ∈ contents, IsName entry.1) (distinct : (contents.map (·.1)).Nodup)
    (written : files.writeBelow directory
      (contents.map fun entry => (directory.child entry.1, entry.2)) = (after, none)) :
    ∀ entry ∈ contents, after.read (directory.child entry.1) = .ok entry.2 := by
  obtain ⟨between, written⟩ := writeBelow_eq_none written
  exact read_writeAll names distinct written

/-- A single file below a directory is read where it was written, whatever its path is. -/
theorem read_writeBelow_singleton {directory : Path}
    (written : files.writeBelow directory [(path, content)] = (after, none)) :
    after.read path = .ok content := by
  obtain ⟨between, written⟩ := writeBelow_eq_none written
  rw [writeAll] at written
  cases wrote : between.write path content with
  | error fault =>
    rw [wrote] at written
    cases congrArg Prod.snd written
  | ok last =>
    rw [wrote] at written
    obtain rfl : last = after := congrArg Prod.fst written
    exact read_write wrote

end StaticSite.Files
