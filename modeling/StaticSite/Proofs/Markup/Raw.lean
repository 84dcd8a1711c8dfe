import StaticSite.Proofs.Markup.Constructs

/-! # Raw content

Where an end tag stands in raw content is found by a machine that remembers how much of it has been
read. It does not tell one blank from several, so content that is moved by lines keeps its end tags.
-/

namespace StaticSite.Markup

/-- How much of an end tag has been read. -/
inductive Mark
  | outside
  | opened
  | slashed
  /-- What is left of the name. -/
  | named (rest : Text)
  deriving DecidableEq

namespace Mark

/-- A mark behind a character that goes on with no end tag. -/
def restart (c : Char) : Mark := if c = '<' then .opened else .outside

/-- The mark behind one more character, none at the end of an end tag. -/
def next (name : Text) : Mark → Char → Option Mark
  | .outside, c => some (restart c)
  | .opened, c => some (if c = '/' then .slashed else restart c)
  | .slashed, c =>
      if isBlank c then some .slashed
      else
        match name with
        | [] => some (restart c)
        | n :: rest => some (if Text.lowerChar c = n then .named rest else restart c)
  | .named [], c =>
      if isBlank c then some (.named []) else if c = '>' then none else some (restart c)
  | .named (n :: rest), c => some (if Text.lowerChar c = n then .named rest else restart c)

/-- The mark behind a text. -/
def run (name : Text) (m : Mark) (t : Text) : Option Mark := t.foldlM (next name) m

theorem run_nil (name : Text) (m : Mark) : run name m [] = some m := rfl

theorem run_cons (name : Text) (m : Mark) (c : Char) (rest : Text) :
    run name m (c :: rest) = (next name m c).bind fun n => run name n rest := List.foldlM_cons

theorem run_append (name : Text) (m : Mark) (x y : Text) :
    run name m (x ++ y) = (run name m x).bind fun n => run name n y := List.foldlM_append

end Mark

/-- Content without an end tag of a name. -/
def RawContent (name t : Text) : Prop := (Mark.run name .outside t).isSome

section Marks

open Mark

variable {name : Text} (word : '<' ∉ name)

theorem run_outside_cons (c : Char) (rest : Text) :
    run name .outside (c :: rest) = run name (restart c) rest := run_cons ..

theorem restart_of_ne {c : Char} (other : c ≠ '<') : restart c = .outside := if_neg other

theorem run_named_nil_eq_none (t : Text) :
    run name (.named []) t = none ↔ (looseEnd? t).isSome ∨ run name .outside t = none := by
  induction t with
  | nil => simp [run_nil, looseEnd?, tagEnd?]
  | cons c rest ih =>
    rw [looseEnd?_cons, run_outside_cons, run_cons, next]
    by_cases blank : isBlank c = true
    · have other : c ≠ '<' := by
        rintro rfl
        exact absurd blank (by decide)
      rw [if_pos blank, if_pos blank, restart_of_ne other, Option.isSome_map]
      exact ih
    · rw [if_neg blank, if_neg blank]
      by_cases ends : c = '>' <;> simp [ends]

include word in
theorem run_named_eq_none {rest : Text} (inside : rest <:+ name) (t : Text) :
    run name (.named rest) t = none ↔ ((t.take rest.length).map Text.lowerChar = rest ∧
      (looseEnd? (t.drop rest.length)).isSome) ∨ run name .outside t = none := by
  induction rest generalizing t with
  | nil => simpa using run_named_nil_eq_none t
  | cons n rest ih =>
    cases t with
    | nil => simp [run_nil]
    | cons c more =>
      have later := ih ((List.suffix_cons n rest).trans inside) more
      rw [run_outside_cons, run_cons, next, Option.bind_some]
      by_cases same : Text.lowerChar c = n
      · have other : c ≠ '<' := by
          rintro rfl
          exact word (inside.mem (same ▸ List.mem_cons_self))
        rw [if_pos same, later, restart_of_ne other]
        simp [same]
      · simp [same]

variable (some : name ≠ [])
include word

/-- What stands behind the slash of an end tag. -/
def endsTag (name t : Text) : Prop :=
  ((t.dropWhile isBlank).take name.length).map Text.lowerChar = name ∧
    (looseEnd? ((t.dropWhile isBlank).drop name.length)).isSome

omit word in
theorem rawEnd?_cons_cons (c d : Char) (rest : Text) : (rawEnd? name (c :: d :: rest)).isSome ↔
    c = '<' ∧ d = '/' ∧ endsTag name rest := by
  by_cases start : c = '<' ∧ d = '/'
  · obtain ⟨rfl, rfl⟩ := start
    rw [rawEnd?, endsTag]
    simp only [drop_length_takeWhile, true_and]
    split
    · next same => simp [same]
    · next other => exact iff_of_false (by simp) fun ends => other ends.1
  · have none : rawEnd? name (c :: d :: rest) = none := by
      rw [rawEnd?]
      rintro more ⟨⟩
      exact start ⟨rfl, rfl⟩
    rw [none]
    simp only [Option.isSome_none, Bool.false_eq_true, false_iff]
    exact fun ends => start ⟨ends.1, ends.2.1⟩

include some

theorem run_slashed_eq_none (t : Text) :
    run name .slashed t = none ↔ endsTag name t ∨ run name .outside t = none := by
  obtain ⟨n, others, rfl⟩ := List.exists_cons_of_ne_nil some
  induction t with
  | nil => simp [run_nil, endsTag]
  | cons c rest ih =>
    by_cases blank : isBlank c = true
    · have other : c ≠ '<' := by
        rintro rfl
        exact absurd blank (by decide)
      rw [run_outside_cons, restart_of_ne other, run_cons, next, if_pos blank, Option.bind_some, ih,
        endsTag, endsTag, List.dropWhile_cons_of_pos blank]
    · have named := run_named_eq_none word (List.suffix_refl (n :: others)) (c :: rest)
      rw [run_cons, next, if_neg blank, endsTag, List.dropWhile_cons_of_neg blank, ← named, run_cons,
        next]

theorem run_opened_eq_none (t : Text) : run name .opened t = none ↔
    (∃ rest, t = '/' :: rest ∧ endsTag name rest) ∨ run name .outside t = none := by
  cases t with
  | nil => simp [run_nil]
  | cons c rest =>
    rw [run_outside_cons, run_cons, next, Option.bind_some]
    by_cases slash : c = '/'
    · subst slash
      rw [if_pos rfl, run_slashed_eq_none word some, restart_of_ne (by decide)]
      simp
    · simp [slash]

/-- Content has no end tag exactly when none is found in it. -/
theorem rawContent_iff (t : Text) : RawContent name t ↔ upTo? (rawEnd? name) t = none := by
  have turned : run name .outside t = none ↔ upTo? (rawEnd? name) t ≠ none := by
    induction t with
    | nil => simp [run_nil, upTo?]
    | cons c rest ih =>
      rw [run_outside_cons, upTo?]
      by_cases start : c = '<'
      · subst start
        have found : (rawEnd? name ('<' :: rest)).isSome ↔
            ∃ more, rest = '/' :: more ∧ endsTag name more := by
          cases rest with
          | nil => simp [rawEnd?]
          | cons d more =>
            rw [rawEnd?_cons_cons]
            simp
        rw [restart, if_pos rfl, run_opened_eq_none word some, ih, ← found]
        cases rawEnd? name ('<' :: rest) <;> simp
      · have none : rawEnd? name (c :: rest) = none := by
          rw [rawEnd?]
          rintro more ⟨⟩
          exact start rfl
        rw [restart_of_ne start, ih, none]
        simp
  rw [RawContent, Option.isSome_iff_ne_none, Ne, turned, not_not]

omit some in
/-- No end tag starts in content and goes on in the next tag. -/
theorem rawEnd?_append {s : Text} (follows : s ≠ []) (quiet : rawEnd? name s = none) (rest : Text) :
    rawEnd? name (s ++ '<' :: rest) = none := by
  match s, follows with
  | [c], _ =>
    have off : ¬(rawEnd? name (c :: '<' :: rest)).isSome := by
      rw [rawEnd?_cons_cons]
      simp
    simpa using off
  | c :: d :: more, _ =>
    have before : ¬(rawEnd? name (c :: d :: more)).isSome := by simp [quiet]
    have off : ¬(rawEnd? name (c :: d :: (more ++ '<' :: rest))).isSome := by
      rw [rawEnd?_cons_cons] at before ⊢
      rintro ⟨start, slash, ends⟩
      refine before ⟨start, slash, ?_⟩
      rw [endsTag, dropWhile_append_of_head? _ (by simp; decide)] at ends
      obtain ⟨same, closes⟩ := ends
      by_cases short : (more.dropWhile isBlank).length < name.length
      · have member : '<' ∈ (more.dropWhile isBlank ++ '<' :: rest).take name.length := by
          rw [List.take_append, List.mem_append]
          refine .inr ?_
          obtain ⟨k, more⟩ := Nat.exists_eq_add_of_lt short
          simp [more, Nat.add_assoc]
        exact absurd (same ▸ List.mem_map_of_mem member) word
      · have long := Nat.le_of_not_lt short
        rw [List.take_append_of_le_length long] at same
        rw [List.drop_append_of_le_length long] at closes
        refine ⟨same, Option.isSome_iff_ne_none.mpr fun none => ?_⟩
        rw [looseEnd?_append_eq_none none (by simp [looseEnd?_cons, show isBlank '<' = false by decide])]
          at closes
        cases closes
    simpa using off

end Marks

/-! ## Reading -/

/-- The tokens of the content of an element with raw content and of its end tag. -/
def rawTokens (name content : Text) : List Token :=
  (if content.isEmpty then [] else [.text content]) ++ [.finish name]

section Elements

variable {name : Text} (raw : name ∈ rawElements)
include raw

theorem name_of_mem_rawElements : '<' ∉ name ∧ name ≠ [] ∧ name.map Text.lowerChar = name ∧
    (∀ c ∈ name.head?, isBlank c = false) ∧ Text.lower name = name := by
  revert name
  decide

theorem tagName_of_mem_rawElements : TagName name := by
  simp only [rawElements, List.mem_cons, List.not_mem_nil, or_false] at raw
  rcases raw with rfl | rfl <;> exact ⟨⟨_, rfl, by decide⟩, by decide⟩

theorem rawEnd?_endTag (rest : Text) :
    rawEnd? name ('<' :: '/' :: (name ++ '>' :: rest)) = some (name.length + 3) := by
  obtain ⟨-, some, same, visible, -⟩ := name_of_mem_rawElements raw
  have blanks : (name ++ '>' :: rest).takeWhile isBlank = [] := by
    obtain ⟨c, more, rfl⟩ := List.exists_cons_of_ne_nil some
    exact List.takeWhile_cons_of_neg (by simpa using visible)
  rw [rawEnd?]
  simp only [blanks, List.length_nil, List.drop_zero, List.take_left, List.drop_left, same]
  simp [looseEnd?_cons, show isBlank '>' = false by decide]
  omega

/-- Raw content is read up to the end tag of its element. -/
theorem rawContent_eq {t : Text} (content : RawContent name t) (rest : Text) :
    rawContent name (t ++ '<' :: '/' :: (name ++ '>' :: rest)) =
      (rawTokens name t, t.length + (name.length + 3)) := by
  obtain ⟨word, some, -⟩ := name_of_mem_rawElements raw
  have quiet := (rawContent_iff word some t).mp content
  have read := upTo?_append (by simp) (fun s some within => rawEnd?_append word some
    (ending?_of_upTo? quiet some within) _) (rawEnd?_endTag raw rest)
  rw [rawContent, read]
  rfl

variable {gap tail : Text} (spacing : Spacing gap tail) {as : List TagAttribute}
variable (sound : ∀ a ∈ as, a.Sound) (separate : TagAttribute.Separate as)
include spacing sound separate

/-- An element with raw content is read at once. -/
theorem tokensFrom_rawElement {t : Text} (content : RawContent name t) (late : Bool) (rest : Text) :
    tokensFrom late 0 (tagText name gap tail as false ++ t ++ ('<' :: '/' :: name ++ ['>']) ++ rest) =
      .start name (Fields.putAll [] (as.map TagAttribute.pair)) false ::
        (rawTokens name t ++ tokensFrom late 0 rest) := by
  obtain ⟨-, -, -, -, lower⟩ := name_of_mem_rawElements raw
  have named := tagName_of_mem_rawElements raw
  have read := startTag?_tagText named spacing sound separate false
    (t ++ '<' :: '/' :: (name ++ '>' :: rest))
  have isRaw : rawElements.elem name = true := List.elem_iff.mpr raw
  simp only [lower, isRaw, rawContent_eq raw content] at read
  obtain ⟨c, more, split, letter⟩ := named.cons
  obtain ⟨behind, text⟩ : ∃ behind, tagText name gap tail as false = '<' :: c :: behind := by
    simp [tagText, split]
  rw [text] at read ⊢
  have whole := @tokensFrom_append late '<' (c :: behind ++ t ++ ('<' :: '/' :: name ++ ['>'])) rest
    (.start name (Fields.putAll [] (as.map TagAttribute.pair)) false :: rawTokens name t) ?_
  · simpa using whole
  · have step : readTag late _ = _ := readTag_letter letter read
    have length : (c :: behind ++ t ++ ('<' :: '/' :: name ++ ['>'])).length + 1 =
        ('<' :: c :: behind).length + (t.length + (name.length + 3)) := by
      simp
      omega
    rw [length]
    unfold readAt
    rw [if_pos rfl]
    simpa using step

end Elements

end StaticSite.Markup
