import StaticSite.Proofs.Site.Property
import StaticSite.Text.Digit

/-! # Names in style maps and in timelines

In a style map a dash goes between a small letter and a capital behind it, in a timeline before every
capital. So the two names of a property are the same when every capital stands behind a small letter,
and only then. Such a name has no capital left and is written as it is from then on, and the capitals
are known again from the dashes where the property has none of its own.
-/

namespace StaticSite.Property

/-- Whether a name is made of ASCII letters, digits and dashes. -/
def Ordinary (name : Text) : Prop := ∀ c ∈ name, (isLetterOrDigit c || c == '-') = true

/-- Whether every capital of a name stands behind a small letter. -/
def Camel (name : Text) : Prop :=
  (∀ c ∈ name.head?, isCapital c = false) ∧
    name.IsChain fun a b => isCapital b = true → isSmall a = true

/-- The capital of a small letter. -/
def capital (c : Char) : Char := Char.ofNat (c.toNat - 32)

/-- Writes a capital for each dash and the small letter behind it. -/
def undashed : Text → Text
  | '-' :: c :: rest =>
      if isSmall c then capital c :: undashed rest else '-' :: undashed (c :: rest)
  | c :: rest => c :: undashed rest
  | [] => []

/-! ## Characters -/

section Characters

variable {c : Char} (ordinary : (isLetterOrDigit c || c == '-') = true)
include ordinary

theorem toNat_lt_of_ordinary : c.toNat < 128 := by
  simp only [isLetterOrDigit, isLetter, isDigit, Bool.or_eq_true, Bool.and_eq_true,
    decide_eq_true_eq, beq_iff_eq, Char.le_def, UInt32.le_iff_toNat_le] at ordinary
  have bounds : 'z'.val.toNat = 122 ∧ 'Z'.val.toNat = 90 ∧ '9'.val.toNat = 57 := by decide
  change c.val.toNat < 128
  rcases ordinary with letter | rfl
  · omega
  · decide

/-- A capital has a small letter that leads back to it. -/
theorem lowerChar_of_isCapital (upper : isCapital c = true) :
    isSmall (Text.lowerChar c) = true ∧ capital (Text.lowerChar c) = c := by
  have all : ∀ n < 128, isCapital (Char.ofNat n) = true →
      isSmall (Text.lowerChar (Char.ofNat n)) = true ∧
        capital (Text.lowerChar (Char.ofNat n)) = Char.ofNat n := by decide
  have here := all c.toNat (toNat_lt_of_ordinary ordinary)
  rw [Char.ofNat_toNat] at here
  exact here upper

theorem lowerChar_of_not_isCapital (other : ¬ isCapital c = true) : Text.lowerChar c = c := by
  have all : ∀ n < 128, ¬ isCapital (Char.ofNat n) = true →
      Text.lowerChar (Char.ofNat n) = Char.ofNat n := by decide
  have here := all c.toNat (toNat_lt_of_ordinary ordinary)
  rw [Char.ofNat_toNat] at here
  exact here other

theorem ordinary_lowerChar : isCapital (Text.lowerChar c) = false ∧
    (isLetterOrDigit (Text.lowerChar c) || Text.lowerChar c == '-') = true := by
  have all : ∀ n < 128, (isLetterOrDigit (Char.ofNat n) || Char.ofNat n == '-') = true →
      isCapital (Text.lowerChar (Char.ofNat n)) = false ∧
        (isLetterOrDigit (Text.lowerChar (Char.ofNat n)) ||
          Text.lowerChar (Char.ofNat n) == '-') = true := by decide
  have here := all c.toNat (toNat_lt_of_ordinary ordinary)
  rw [Char.ofNat_toNat] at here
  exact here ordinary

end Characters

theorem lowerAfter_of_ordinary {t : Text} (ordinary : Ordinary t) (before : Text) :
    Text.lowerAfter before t = t.map Text.lowerChar := by
  induction t generalizing before with
  | nil => rfl
  | cons c rest ih =>
    obtain ⟨here, others⟩ := List.forall_mem_cons.mp ordinary
    rw [Text.lowerAfter, Text.lowerBetween_ascii (toNat_lt_of_ordinary here), ih others]
    rfl

/-! ## Dashes -/

/-- A character with a dash before a capital. -/
def spread (c : Char) : Text := if isCapital c then ['-', c] else [c]

theorem styleName_eq {name : Text} (ordinary : Ordinary name) :
    styleName name = (dashed name).map Text.lowerChar := by
  refine lowerAfter_of_ordinary (fun c member => ?_) []
  rcases mem_dashed member with inside | rfl
  · exact ordinary c inside
  · decide

theorem timelineName_eq {name : Text} (ordinary : Ordinary name) :
    timelineName name = (name.flatMap spread).map Text.lowerChar := by
  rw [timelineName, List.map_flatMap]
  refine List.flatMap_congr fun c member => ?_
  unfold spread
  split
  · rfl
  · next other => simp [lowerChar_of_not_isCapital (ordinary c member) other]

/-- Behind small letters only, every capital gets its dash. -/
theorem dashed_of_isChain {a : Char} {rest : Text}
    (chain : (a :: rest).IsChain fun a b => isCapital b = true → isSmall a = true) :
    dashed (a :: rest) = a :: rest.flatMap spread := by
  induction rest generalizing a with
  | nil => rfl
  | cons b more ih =>
    obtain ⟨joint, others⟩ := List.isChain_cons_cons.mp chain
    rw [dashed, ih others, List.flatMap_cons]
    by_cases upper : isCapital b = true
    · simp [spread, upper, joint upper]
    · simp [spread, upper]

theorem length_spread (c : Char) : (spread c).length = if isCapital c = true then 2 else 1 := by
  unfold spread
  split <;> rfl

theorem length_dashed_cons (a b : Char) (rest : Text) : (dashed (a :: b :: rest)).length =
    (dashed (b :: rest)).length + if isSmall a = true ∧ isCapital b = true then 2 else 1 := by
  rw [dashed]
  by_cases joint : isSmall a = true ∧ isCapital b = true
  · simp [joint]
  · simp [joint]

/-- No capital gets more than one dash, and all of them get one only behind small letters. -/
theorem length_dashed (a : Char) (rest : Text) :
    (dashed (a :: rest)).length ≤ (rest.flatMap spread).length + 1 ∧
      ((dashed (a :: rest)).length = (rest.flatMap spread).length + 1 →
        (a :: rest).IsChain fun a b => isCapital b = true → isSmall a = true) := by
  induction rest generalizing a with
  | nil => exact ⟨le_rfl, fun _ => .singleton a⟩
  | cons b more ih =>
    obtain ⟨bound, chain⟩ := ih b
    rw [length_dashed_cons, List.flatMap_cons, List.length_append, length_spread]
    by_cases upper : isCapital b = true
    · by_cases small : isSmall a = true
      · rw [if_pos ⟨small, upper⟩, if_pos upper]
        refine ⟨by omega, fun same => ?_⟩
        exact List.isChain_cons_cons.mpr ⟨fun _ => small, chain (by omega)⟩
      · rw [if_neg fun both => small both.1, if_pos upper]
        exact ⟨by omega, fun same => absurd same (by omega)⟩
    · rw [if_neg fun both => upper both.2, if_neg upper]
      refine ⟨by omega, fun same => ?_⟩
      exact List.isChain_cons_cons.mpr ⟨fun other => absurd other upper, chain (by omega)⟩

/-- As many dashes are put in a name for style maps as in one for timelines when every capital stands
behind a small letter. -/
theorem camel_of_length {name : Text}
    (same : (dashed name).length = (name.flatMap spread).length) : Camel name := by
  cases name with
  | nil => exact ⟨by simp, .nil⟩
  | cons a rest =>
    obtain ⟨bound, chain⟩ := length_dashed a rest
    rw [List.flatMap_cons, List.length_append, length_spread] at same
    by_cases upper : isCapital a = true
    · rw [if_pos upper] at same
      omega
    · rw [if_neg upper] at same
      exact ⟨by simpa using upper, chain (by omega)⟩

theorem dashed_of_camel {name : Text} (camel : Camel name) : dashed name = name.flatMap spread := by
  cases name with
  | nil => rfl
  | cons a rest =>
    have first : isCapital a = false := camel.1 a rfl
    rw [dashed_of_isChain camel.2, List.flatMap_cons, spread, first]
    rfl

/-! ## Names -/

section Ordinary

variable {name : Text} (ordinary : Ordinary name)
include ordinary

theorem styleName_eq_timelineName_iff : styleName name = timelineName name ↔ Camel name := by
  rw [styleName_eq ordinary, timelineName_eq ordinary]
  constructor
  · intro same
    apply camel_of_length
    simpa only [List.length_map] using congrArg List.length same
  · intro camel
    rw [dashed_of_camel camel]

/-- A name in a timeline has no capital. -/
theorem mem_timelineName {c : Char} (member : c ∈ timelineName name) :
    isCapital c = false ∧ (isLetterOrDigit c || c == '-') = true := by
  rw [timelineName_eq ordinary] at member
  obtain ⟨d, inside, rfl⟩ := List.mem_map.mp member
  apply ordinary_lowerChar
  obtain ⟨e, origin, made⟩ := List.mem_flatMap.mp inside
  unfold spread at made
  split at made
  · rcases List.mem_cons.mp made with rfl | last
    · decide
    · rw [List.mem_singleton.mp last]
      exact ordinary e origin
  · rw [List.mem_singleton.mp made]
    exact ordinary e origin

/-- A name without dashes is known again from the one in a timeline. -/
theorem undashed_timelineName (bare : '-' ∉ name) : undashed (timelineName name) = name := by
  induction name with
  | nil => rfl
  | cons c rest ih =>
    obtain ⟨here, others⟩ := List.forall_mem_cons.mp ordinary
    have behind := ih others fun member => bare (List.mem_cons_of_mem c member)
    rw [timelineName, List.flatMap_cons, ← timelineName]
    by_cases upper : isCapital c = true
    · obtain ⟨small, back⟩ := lowerChar_of_isCapital here upper
      rw [if_pos upper]
      change undashed ('-' :: Text.lowerChar c :: timelineName rest) = c :: rest
      rw [undashed, if_pos small, back, behind]
    · have other : c ≠ '-' := by
        rintro rfl
        exact bare List.mem_cons_self
      rw [if_neg upper]
      change undashed (c :: timelineName rest) = c :: rest
      rw [undashed, behind]
      rintro d more rfl
      exact absurd rfl other

end Ordinary

/-- A name without capitals is written as it is. -/
theorem names_of_small {name : Text} (ordinary : Ordinary name)
    (small : ∀ c ∈ name, isCapital c = false) : styleName name = name ∧ timelineName name = name := by
  have camel : Camel name := by
    refine ⟨fun c first => small c (List.mem_of_mem_head? first), ?_⟩
    refine (List.pairwise_of_forall_mem_list fun a _ b member upper => ?_).isChain
    rw [small b member] at upper
    cases upper
  have same : timelineName name = name := by
    rw [timelineName, List.flatMap_congr fun c member => if_neg (by rw [small c member]; decide)]
    exact List.flatMap_singleton' name
  exact ⟨((styleName_eq_timelineName_iff ordinary).mpr camel).trans same, same⟩

/-- A style map and a timeline name a property alike exactly when every capital of the name stands
behind a small letter. Then the name has no capital left, both conversions leave it alone, the
property is known again from it where it has no dash, so no other such property has that name, and
what is declared is the same in a style map and in a timeline. -/
theorem names_agree {name : String} (ordinary : Ordinary name.toList) :
    (styleName name.toList = timelineName name.toList ↔ Camel name.toList) ∧
      (Camel name.toList →
        (∀ c ∈ styleName name.toList, isCapital c = false) ∧
        styleName (styleName name.toList) = styleName name.toList ∧
        timelineName (styleName name.toList) = styleName name.toList ∧
        ('-' ∉ name.toList → undashed (styleName name.toList) = name.toList ∧
          ∀ other : String, Ordinary other.toList → Camel other.toList → '-' ∉ other.toList →
            styleName other.toList = styleName name.toList → other = name) ∧
        ∀ value, Declaration.ofProperty name value = Declaration.ofTimeline name value) := by
  refine ⟨styleName_eq_timelineName_iff ordinary, fun camel => ?_⟩
  have same := (styleName_eq_timelineName_iff ordinary).mpr camel
  have members : ∀ c ∈ styleName name.toList, isCapital c = false ∧
      (isLetterOrDigit c || c == '-') = true := by
    rw [same]
    exact fun c member => mem_timelineName ordinary member
  have rest := names_of_small (fun c member => (members c member).2) fun c member => (members c member).1
  refine ⟨fun c member => (members c member).1, rest.1, rest.2, fun bare => ⟨?_, ?_⟩, fun value => ?_⟩
  · rw [same, undashed_timelineName ordinary bare]
  · intro other ordinaryOther camelOther bareOther alike
    rw [same, (styleName_eq_timelineName_iff ordinaryOther).mpr camelOther] at alike
    have back := congrArg undashed alike
    rw [undashed_timelineName ordinaryOther bareOther, undashed_timelineName ordinary bare] at back
    exact String.toList_injective back
  · rw [Declaration.ofProperty, Declaration.ofTimeline, same]

theorem names_agree_borderTopWidth :
    Ordinary "borderTopWidth".toList ∧ Camel "borderTopWidth".toList ∧
      '-' ∉ "borderTopWidth".toList ∧
      styleName "borderTopWidth".toList = "border-top-width".toList ∧
      timelineName "borderTopWidth".toList = "border-top-width".toList ∧
      undashed "border-top-width".toList = "borderTopWidth".toList ∧
      ∀ value, Declaration.ofProperty "borderTopWidth" value =
        Declaration.ofTimeline "borderTopWidth" value := by
  have ordinary : Ordinary "borderTopWidth".toList := by
    unfold Ordinary
    decide
  have camel : Camel "borderTopWidth".toList := by
    unfold Camel
    decide
  have style : styleName "borderTopWidth".toList = "border-top-width".toList := by decide
  obtain ⟨agree, more⟩ := names_agree ordinary
  obtain ⟨-, -, -, known, declared⟩ := more camel
  have same := agree.mpr camel
  have back := (known (by decide)).1
  rw [style] at same back
  exact ⟨ordinary, camel, by decide, style, same.symm, back, declared⟩

end StaticSite.Property
