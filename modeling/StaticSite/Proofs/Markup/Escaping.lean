import StaticSite.Markup.Reference
import StaticSite.Proofs.Text.Trim
import StaticSite.Text.Escaped

/-! # Resolving escaped values

A value whose special characters are written as references is resolved to itself: each reference
ends with a semicolon, so what stands behind it makes no difference. Angle brackets and quotes are
always written as references, so that an escaped value holds none.
-/

namespace StaticSite.Markup

/-- A table of references that are resolved to the characters they are written for, with every
ampersand among them. -/
def Resolves (reference : Char → Option String) : Prop :=
  ∀ c, match reference c with
    | some s => ∃ body : Text, s.toList = '&' :: body ∧
        ∀ rest, valueReference? (body ++ rest) = some ([c], body.length)
    | none => c ≠ '&'

theorem resolveFrom_skip (x rest : Text) : resolveFrom x.length (x ++ rest) = resolveFrom 0 rest := by
  induction x with
  | nil => rfl
  | cons c more ih => simpa [resolveFrom] using ih

/-- A value is resolved from what is written for it. -/
theorem resolve_replaceEach {reference : Char → Option String} (resolves : Resolves reference)
    (t : Text) : resolve (Text.replaceEach reference t) = t := by
  unfold resolve
  induction t with
  | nil => rfl
  | cons c rest ih =>
    have entry := resolves c
    have split : Text.replaceEach reference (c :: rest) =
        Text.replaceEach reference [c] ++ Text.replaceEach reference rest :=
      Text.replaceEach_append reference [c] rest
    rw [split]
    cases found : reference c with
    | none =>
      simp only [found] at entry
      simp [Text.replaceEach, found, resolveFrom, entry] at ih ⊢
      exact ih
    | some s =>
      simp only [found] at entry
      obtain ⟨body, written, read⟩ := entry
      have single : Text.replaceEach reference [c] = '&' :: body := by
        simp [Text.replaceEach, found, written]
      rw [single, List.cons_append, resolveFrom, if_neg (by decide), if_pos rfl, read]
      simp only [resolveFrom_skip, ih]
      rfl

/-- A named reference with its semicolon is read whatever stands behind it. -/
theorem valueReference?_named (name : Text) {characters : Text} (short : name.length ≤ 32)
    (word : ∀ c ∈ name, isReferenceChar c = true)
    (found : (namedReference? name).map NamedReference.characters = some characters)
    (rest : Text) :
    valueReference? (name ++ ';' :: rest) = some (characters, name.length + 1) := by
  have run : ((name ++ ';' :: rest).takeWhile isReferenceChar).take 32 = name := by
    rw [takeWhile_append_of_head? word (by simp; decide), List.take_of_length_le short]
  obtain ⟨reference, lookup, rfl⟩ := Option.map_eq_some_iff.mp found
  rw [valueReference?]
  · simp [run, lookup]
  · intro more number
    cases name with
    | nil => simp at number
    | cons c others =>
      obtain rfl : c = '#' := by simpa using (List.cons.inj number).1
      exact absurd (word '#' List.mem_cons_self) (by decide)

theorem resolves_contentReference : Resolves Text.contentReference := by
  intro c
  unfold Text.contentReference
  split
  · next found =>
    split at found <;> cases found
    · exact ⟨_, rfl, valueReference?_named "amp" (by decide) (by decide) rfl⟩
    · exact ⟨_, rfl, valueReference?_named "lt" (by decide) (by decide) rfl⟩
    · exact ⟨_, rfl, valueReference?_named "gt" (by decide) (by decide) rfl⟩
  · next found =>
    rintro rfl
    cases found

/-- A table that has references of its own for quotes and those of content for the rest. -/
theorem Resolves.of_quotes {reference : Char → Option String}
    (quotes : ∀ c ∈ ['"', '\''], ∃ s body, reference c = some s ∧ s.toList = '&' :: body ∧
      ∀ rest, valueReference? (body ++ rest) = some ([c], body.length))
    (others : ∀ c, c ∉ ['"', '\''] → reference c = Text.contentReference c) :
    Resolves reference := by
  intro c
  by_cases quote : c ∈ ['"', '\'']
  · obtain ⟨s, body, found, written, read⟩ := quotes c quote
    rw [found]
    exact ⟨body, written, read⟩
  · rw [others c quote]
    exact resolves_contentReference c

theorem resolves_attributeReference : Resolves Text.attributeReference := by
  refine .of_quotes (List.forall_mem_cons.mpr ⟨?_, List.forall_mem_singleton.mpr ?_⟩) fun c other => ?_
  · exact ⟨_, _, rfl, rfl, valueReference?_named "quot" (by decide) (by decide) rfl⟩
  · exact ⟨_, _, rfl, rfl, fun rest => rfl⟩
  · simp only [List.mem_cons, List.not_mem_nil, or_false, not_or] at other
    rw [Text.attributeReference]
    · exact other.1
    · exact other.2

theorem resolves_fieldReference : Resolves Text.fieldReference := by
  refine .of_quotes (List.forall_mem_cons.mpr ⟨?_, List.forall_mem_singleton.mpr ?_⟩) fun c other => ?_
  · exact ⟨_, _, rfl, rfl, fun rest => rfl⟩
  · exact ⟨_, _, rfl, rfl, fun rest => rfl⟩
  · simp only [List.mem_cons, List.not_mem_nil, or_false, not_or] at other
    rw [Text.fieldReference]
    · exact other.1
    · exact other.2

/-! ## Characters that are always escaped -/

/-- A character that has a reference and stands in none is not in an escaped text. -/
theorem not_mem_replaceEach {reference : Char → Option String} {c : Char} {s : String}
    (escaped : reference c = some s) (absent : ∀ d, ∀ own ∈ reference d, c ∉ own.toList) (t : Text) :
    c ∉ Text.replaceEach reference t := by
  intro member
  obtain ⟨d, -, inside⟩ := List.mem_flatMap.mp member
  cases found : reference d with
  | some own =>
    rw [found] at inside
    exact absent d own found inside
  | none =>
    rw [found] at inside
    obtain rfl := List.mem_singleton.mp inside
    rw [escaped] at found
    cases found

theorem mem_of_contentReference {c : Char} {s : String} (found : s ∈ Text.contentReference c) :
    s ∈ ["&amp;", "&lt;", "&gt;"] := by
  unfold Text.contentReference at found
  split at found <;> cases found <;> simp

theorem mem_of_attributeReference {c : Char} {s : String} (found : s ∈ Text.attributeReference c) :
    s ∈ ["&quot;", "&#x27;", "&amp;", "&lt;", "&gt;"] := by
  unfold Text.attributeReference at found
  split at found
  · cases found; simp
  · cases found; simp
  · exact List.mem_cons_of_mem _ (List.mem_cons_of_mem _ (mem_of_contentReference found))

theorem mem_of_fieldReference {c : Char} {s : String} (found : s ∈ Text.fieldReference c) :
    s ∈ ["&#34;", "&#39;", "&amp;", "&lt;", "&gt;"] := by
  unfold Text.fieldReference at found
  split at found
  · cases found; simp
  · cases found; simp
  · exact List.mem_cons_of_mem _ (List.mem_cons_of_mem _ (mem_of_contentReference found))

/-- The characters that begin and end tags and values. -/
def tagDelimiters : List Char := ['<', '>', '"', '\'']

/-- No delimiter is left in an escaped attribute value. -/
theorem not_mem_escapeAttribute {c : Char} (delimiter : c ∈ tagDelimiters) (t : Text) :
    c ∉ Text.escapeAttribute t := by
  have known : ∀ c ∈ tagDelimiters, (Text.attributeReference c).isSome = true ∧
      ∀ s ∈ ["&quot;", "&#x27;", "&amp;", "&lt;", "&gt;"], c ∉ s.toList := by decide
  obtain ⟨own, escaped⟩ := Option.isSome_iff_exists.mp (known c delimiter).1
  exact not_mem_replaceEach escaped
    (fun _ s found => (known c delimiter).2 s (mem_of_attributeReference found)) t

/-- No delimiter is left in an escaped field. -/
theorem not_mem_escapeField {c : Char} (delimiter : c ∈ tagDelimiters) (t : Text) :
    c ∉ Text.escapeField t := by
  have known : ∀ c ∈ tagDelimiters, (Text.fieldReference c).isSome = true ∧
      ∀ s ∈ ["&#34;", "&#39;", "&amp;", "&lt;", "&gt;"], c ∉ s.toList := by decide
  obtain ⟨own, escaped⟩ := Option.isSome_iff_exists.mp (known c delimiter).1
  exact not_mem_replaceEach escaped
    (fun _ s found => (known c delimiter).2 s (mem_of_fieldReference found)) t

end StaticSite.Markup
