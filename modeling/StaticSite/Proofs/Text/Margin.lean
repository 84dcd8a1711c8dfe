import StaticSite.Proofs.Text.Lines

/-! # Moving lines again

Lines that are taken to the margin and moved to an indentation have that indentation as their
margin, so taking them to the margin again gives the same lines. The same holds of blank lines at
the ends: they are dropped once. A margin is the longest indentation that its lines share.
-/

namespace StaticSite.Text

/-! ## Margins behind an indentation -/

/-- Lines behind an indentation; an empty one stays empty. -/
def shift (indent : Text) (ls : List Text) : List Text :=
  ls.map fun line => if line.isEmpty then [] else indent ++ line

/-- Whether every line of nothing but spaces and tabs is empty. -/
def Clean (ls : List Text) : Prop := ∀ l ∈ ls, isBareLine l = true → l = []

theorem commonStart_append (p s t : Text) :
    commonStart (p ++ s) (p ++ t) = p ++ commonStart s t := by
  induction p with
  | nil => rfl
  | cons c rest ih => simp [commonStart, ih]

theorem isBareLine_append (p l : Text) :
    isBareLine (p ++ l) = (isBareLine p && isBareLine l) := List.all_append

theorem takeWhile_isIndent_append {p : Text} (indents : isBareLine p = true) (l : Text) :
    (p ++ l).takeWhile isIndent = p ++ l.takeWhile isIndent :=
  List.takeWhile_append_of_pos (List.all_eq_true.mp indents)

section Shift

variable {p : Text} (indents : isBareLine p = true) {ls : List Text} (clean : Clean ls)
include indents clean

/-- An indentation in front of all lines is in front of their margin. -/
theorem margin_shift : margin (shift p ls) = (margin ls).map (p ++ ·) := by
  induction ls with
  | nil => rfl
  | cons l rest ih =>
    obtain ⟨here, others⟩ := List.forall_mem_cons.mp clean
    have below := ih others
    rw [shift, List.map_cons, ← shift, margin, margin]
    by_cases bare : isBareLine l = true
    · rw [here bare]
      exact below
    · have some : ¬ l.isEmpty = true := fun empty => bare (by rw [List.isEmpty_iff.mp empty]; rfl)
      have shows : ¬ isBareLine (p ++ l) = true := by rwa [isBareLine_append, indents, Bool.true_and]
      rw [if_neg some, if_neg shows, if_neg bare, below]
      dsimp only
      rw [takeWhile_isIndent_append indents]
      cases margin rest with
      | none => rfl
      | some other => exact congrArg Option.some (commonStart_append p _ other)

end Shift

/-- A margin is made of spaces and tabs. -/
theorem isBareLine_margin (ls : List Text) : isBareLine ((margin ls).getD []) = true := by
  induction ls with
  | nil => rfl
  | cons l rest ih =>
    rw [margin]
    split
    · exact ih
    · have own : ∀ c ∈ l.takeWhile isIndent, isIndent c = true := fun c => List.mem_takeWhile_imp
      cases margin rest with
      | none => exact List.all_eq_true.mpr own
      | some other =>
        have shared := commonStart_prefix (l.takeWhile isIndent) other
        exact List.all_eq_true.mpr fun c member => own c (shared.1.subset member)

/-- A visible line is the margin of its list and a rest. -/
theorem exists_behind_margin {ls : List Text} {l : Text} (member : l ∈ ls)
    (shows : ¬ isBareLine l = true) : ∃ rest, l = (margin ls).getD [] ++ rest ∧
      ¬ isBareLine rest = true ∧ l.drop ((margin ls).getD []).length = rest := by
  have start : (margin ls).getD [] <+: l := by
    cases found : margin ls with
    | none => exact List.nil_prefix
    | some m =>
      have margins := margin_prefix found l member (by simpa using shows)
      exact margins.trans (List.takeWhile_prefix isIndent)
  obtain ⟨rest, whole⟩ := start
  refine ⟨rest, whole.symm, ?_, by rw [← whole, List.drop_left]⟩
  rwa [← whole, isBareLine_append, isBareLine_margin, Bool.true_and] at shows

theorem clean_dedent (ls : List Text) : Clean (dedent ls) := by
  intro l member bare
  obtain ⟨k, inside, rfl⟩ := List.mem_map.mp member
  by_cases empty : isBareLine k = true
  · exact if_pos empty
  · obtain ⟨rest, -, visible, cut⟩ := exists_behind_margin inside empty
    rw [if_neg empty, cut] at bare
    exact absurd bare visible

section Dedent

variable {ls : List Text} (clean : Clean ls)
include clean

theorem shift_dedent : shift ((margin ls).getD []) (dedent ls) = ls := by
  rw [shift, dedent, List.map_map]
  refine (List.map_congr_left fun l member => ?_).trans (List.map_id ls)
  by_cases bare : isBareLine l = true
  · simp [clean l member bare, isBareLine]
  · obtain ⟨rest, whole, visible, cut⟩ := exists_behind_margin member bare
    have some : ¬ rest.isEmpty = true := fun empty => visible (by rw [List.isEmpty_iff.mp empty]; rfl)
    simp only [Function.comp, if_neg bare, cut, if_neg some, id]
    exact whole.symm

/-- Lines at the margin share no indentation. -/
theorem margin_dedent : (margin (dedent ls)).getD [] = [] := by
  have same := margin_shift (isBareLine_margin ls) (clean_dedent ls)
  rw [shift_dedent clean] at same
  cases inner : margin (dedent ls) with
  | none => rfl
  | some m =>
    rw [inner, Option.map_some] at same
    have whole := congrArg (fun m : Option Text => (m.getD []).length) same
    simp only [Option.getD_some, List.length_append] at whole
    have none : m.length = 0 := by omega
    exact List.length_eq_zero_iff.mp none

/-- Moving lines and taking them to the margin again gives what they were at the margin. -/
theorem dedent_shift_dedent {p : Text} (indents : isBareLine p = true) :
    dedent (shift p (dedent ls)) = dedent ls := by
  have inner := margin_dedent clean
  have width : margin (shift p (dedent ls)) = (margin (dedent ls)).map (p ++ ·) :=
    margin_shift indents (clean_dedent ls)
  rw [dedent, width, shift, List.map_map]
  refine (List.map_congr_left fun l member => ?_).trans (List.map_id _)
  by_cases bare : isBareLine l = true
  · simp [clean_dedent ls l member bare, isBareLine]
  · have some : ¬ l.isEmpty = true := fun empty => bare (by rw [List.isEmpty_iff.mp empty]; rfl)
    have shows : ¬ isBareLine (p ++ l) = true := by rwa [isBareLine_append, indents, Bool.true_and]
    cases found : margin (dedent ls) with
    | none => exact absurd (isBareLine_of_margin found l member) bare
    | some m =>
      obtain rfl : m = [] := by simpa [found] using inner
      simp only [Function.comp, if_neg some, Option.map_some, Option.getD_some, List.append_nil,
        if_neg shows, List.drop_left, id]

end Dedent

/-! ## The longest shared indentation -/

/-- A text begins the common beginning of two texts exactly when it begins both of them. -/
theorem prefix_commonStart_iff {p s t : Text} : p <+: commonStart s t ↔ p <+: s ∧ p <+: t := by
  constructor
  · intro start
    have shared := commonStart_prefix s t
    exact ⟨start.trans shared.1, start.trans shared.2⟩
  · rintro ⟨⟨s', rfl⟩, t', rfl⟩
    rw [commonStart_append]
    exact List.prefix_append p _

/-- A text of spaces and tabs begins the margin exactly when it begins every visible line. -/
theorem prefix_margin_iff {ls : List Text} {p m : Text} (indents : isBareLine p = true)
    (found : margin ls = some m) : p <+: m ↔ ∀ l ∈ ls, ¬ isBareLine l = true → p <+: l := by
  have own (l : Text) : p <+: l.takeWhile isIndent ↔ p <+: l := by
    refine ⟨fun start => start.trans (List.takeWhile_prefix isIndent), ?_⟩
    rintro ⟨rest, rfl⟩
    rw [takeWhile_isIndent_append indents]
    exact List.prefix_append p _
  induction ls generalizing m with
  | nil => cases found
  | cons l rest ih =>
    rw [List.forall_mem_cons]
    rw [margin] at found
    by_cases bare : isBareLine l = true
    · rw [if_pos bare] at found
      exact (ih found).trans (and_iff_right (absurd bare)).symm
    · rw [if_neg bare] at found
      rw [forall_prop_of_true bare]
      cases below : margin rest with
      | none =>
        obtain rfl : l.takeWhile isIndent = m := by simpa [below] using found
        have others : ∀ k ∈ rest, ¬ isBareLine k = true → p <+: k := fun k member visible =>
          absurd (isBareLine_of_margin below k member) visible
        exact (own l).trans (and_iff_left others).symm
      | some other =>
        obtain rfl : commonStart (l.takeWhile isIndent) other = m := by simpa [below] using found
        rw [prefix_commonStart_iff]
        exact and_congr (own l) (ih below)

/-- Whether a text is the indentation that lines share: spaces and tabs that begin every line that
is not empty, and no longer ones do. -/
structure SharedIndent (shared : Text) (ls : List Text) : Prop where
  bare : isBareLine shared = true
  begins : ∀ l ∈ ls, l ≠ [] → shared <+: l
  longest : ∀ other, isBareLine other = true → (∀ l ∈ ls, l ≠ [] → other <+: l) → other <+: shared

theorem SharedIndent.unique {s t : Text} {ls : List Text} (first : SharedIndent s ls)
    (second : SharedIndent t ls) : s = t := by
  have longer := second.longest s first.bare first.begins
  have shorter := first.longest t second.bare second.begins
  exact longer.eq_of_length_le shorter.length_le

theorem Clean.ne_nil_iff {ls : List Text} (clean : Clean ls) {l : Text} (member : l ∈ ls) :
    l ≠ [] ↔ ¬ isBareLine l = true := by
  refine not_congr ⟨?_, clean l member⟩
  rintro rfl
  rfl

/-- The margin of lines that are not all empty is the indentation they share. -/
theorem sharedIndent_margin {ls : List Text} (clean : Clean ls) {m : Text}
    (found : margin ls = some m) : SharedIndent m ls := by
  have bare : isBareLine m = true := by simpa [found] using isBareLine_margin ls
  refine ⟨bare, fun l member some => ?_, fun other indents begins => ?_⟩
  · have visible := (clean.ne_nil_iff member).mp some
    exact (prefix_margin_iff bare found).mp (List.prefix_refl m) l member visible
  · apply (prefix_margin_iff indents found).mpr
    intro l member visible
    exact begins l member ((clean.ne_nil_iff member).mpr visible)

/-- Moved lines that are empty at the margin are empty where they are. -/
theorem clean_shift {p : Text} {ls : List Text} (clean : Clean ls) : Clean (shift p ls) := by
  intro l member bare
  obtain ⟨k, inside, rfl⟩ := List.mem_map.mp member
  by_cases empty : k.isEmpty = true
  · exact if_pos empty
  · rw [if_neg empty, isBareLine_append, Bool.and_eq_true] at bare
    rw [clean k inside bare.2] at empty
    exact absurd rfl empty

/-- Lines that are moved from the margin share the indentation they are moved to. -/
theorem margin_shift_dedent {p : Text} (indents : isBareLine p = true) {ls : List Text}
    (clean : Clean ls) {m : Text} (found : margin ls = some m) :
    margin (shift p (dedent ls)) = some p := by
  have flush := margin_dedent clean
  have behind : margin ls = (margin (dedent ls)).map ((margin ls).getD [] ++ ·) := by
    have moved := margin_shift (isBareLine_margin ls) (clean_dedent ls)
    rwa [shift_dedent clean] at moved
  rw [margin_shift indents (clean_dedent ls)]
  cases inner : margin (dedent ls) with
  | none =>
    rw [inner, found] at behind
    cases behind
  | some other =>
    obtain rfl : other = [] := by simpa [inner] using flush
    rw [Option.map_some, List.append_nil]

/-! ## Blank lines at the ends -/

theorem head?_trimLines (ls : List Text) : ∀ l ∈ (trimLines ls).head?, isBlank l = false := by
  intro l first
  have start := List.rdropWhile_prefix isBlank (ls.dropWhile isBlank)
  exact head?_dropWhile ls l (mem_head?_of_start start l first)

theorem getLast?_trimLines (ls : List Text) : ∀ l ∈ (trimLines ls).getLast?, isBlank l = false :=
  getLast?_rdropWhile _

/-- Blank lines around lines are dropped. -/
theorem trimLines_around {before ls behind : List Text} (first : ∀ l ∈ before, isBlank l = true)
    (last : ∀ l ∈ behind, isBlank l = true) : trimLines (before ++ ls ++ behind) = trimLines ls := by
  change ((before ++ ls ++ behind).dropWhile isBlank).rdropWhile isBlank =
    (ls.dropWhile isBlank).rdropWhile isBlank
  rw [List.append_assoc, List.dropWhile_append_of_pos first]
  by_cases kept : ∃ l ∈ ls, isBlank l = false
  · rw [dropWhile_append_of_exists kept, rdropWhile_append_of_forall last]
  · have all : ∀ l ∈ ls, isBlank l = true := by simpa using kept
    rw [List.dropWhile_append_of_pos all, List.dropWhile_eq_nil_iff.mpr all,
      List.dropWhile_eq_nil_iff.mpr last]

theorem trimLines_trimLines (ls : List Text) : trimLines (trimLines ls) = trimLines ls := by
  have ends : (trimLines ls).dropWhile isBlank = trimLines ls := dropWhile_of_head? (head?_trimLines ls)
  change ((trimLines ls).dropWhile isBlank).rdropWhile isBlank = trimLines ls
  rw [ends, rdropWhile_of_getLast? (getLast?_trimLines ls)]

end StaticSite.Text
