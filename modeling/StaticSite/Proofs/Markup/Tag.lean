import StaticSite.Markup.Token
import StaticSite.Proofs.Text.Trim

/-! # Reading tags

A tag that is written with blanks between its attributes, each alone or with a value in quotes, is
read as one token, whatever stands behind it.
-/

namespace StaticSite.Markup

/-- An attribute as it stands in a tag: its name, alone or with a value in quotes. -/
structure TagAttribute where
  name : Text
  value : Option (Char × Text)

namespace TagAttribute

/-- What stands behind the name. -/
def valueText (a : TagAttribute) : Text :=
  match a.value with
  | none => []
  | some (quote, body) => '=' :: quote :: body ++ [quote]

/-- The text of an attribute. -/
def text (a : TagAttribute) : Text := a.name ++ a.valueText

/-- An attribute as it is read. -/
def pair (a : TagAttribute) : Text × Text :=
  (Text.lower a.name, resolve ((a.value.map Prod.snd).getD []))

/-- Whether a text is the name of an attribute: only its first character may be an equals sign. -/
structure Named (name : Text) : Prop where
  head : ∃ c ∈ name.head?, isBlank c = false ∧ c ≠ '/' ∧ c ≠ '>'
  chars : ∀ c ∈ name.tail, isAttributeChar c = true

/-- An attribute that can be read: its name is one, and its value does not hold the quote. -/
structure Sound (a : TagAttribute) : Prop where
  named : Named a.name
  quoted : ∀ v ∈ a.value, isQuote v.1 = true ∧ v.1 ∉ v.2

/-- Attributes of which none takes the next one for its value: what stands alone is not followed by
an equals sign. -/
def Separate : List TagAttribute → Prop
  | a :: b :: rest => (a.value = none → b.name.head? ≠ some '=') ∧ Separate (b :: rest)
  | _ => True

theorem Named.cons {name : Text} (named : Named name) : ∃ c rest, name = c :: rest ∧
    (isBlank c = false ∧ c ≠ '/' ∧ c ≠ '>') ∧ ∀ d ∈ rest, isAttributeChar d = true := by
  obtain ⟨c, first, start⟩ := named.head
  obtain ⟨rest, rfl⟩ := List.head?_eq_some_iff.mp first
  exact ⟨c, rest, rfl, start, named.chars⟩

/-- A text of characters that may stand anywhere in a name is a name. -/
theorem Named.of_chars {name : Text} (some : name ≠ [])
    (chars : ∀ c ∈ name, isAttributeChar c = true) : Named name := by
  obtain ⟨c, rest, rfl⟩ := List.exists_cons_of_ne_nil some
  have here := chars c List.mem_cons_self
  simp only [isAttributeChar, Bool.not_eq_true', Bool.or_eq_false_iff, beq_eq_false_iff_ne] at here
  exact ⟨⟨c, rfl, here.1.1.1, here.1.1.2, here.2⟩,
    fun d member => chars d (List.mem_cons_of_mem c member)⟩

/-- Attributes without equals signs in their names take nothing for their values. -/
theorem separate_of_chars {as : List TagAttribute}
    (chars : ∀ a ∈ as, ∀ c ∈ a.name, isAttributeChar c = true) : Separate as := by
  induction as with
  | nil => trivial
  | cons a rest ih =>
    have others := ih fun b member => chars b (List.mem_cons_of_mem a member)
    cases rest with
    | nil => trivial
    | cons b more =>
      refine ⟨fun _ sign => ?_, others⟩
      have char := chars b (by simp) '=' (List.mem_of_head? sign)
      exact absurd char (by decide)

end TagAttribute

/-- A text that an attribute can end at: the end of the tag or, behind blanks, one more name. -/
structure Bounded (gap more : Text) : Prop where
  blanks : ∀ c ∈ gap, isBlank c = true
  head : ∀ c ∈ more.head?, isBlank c = false
  gapless : gapLength more = 0
  apart : gap = [] → ∀ c ∈ more.head?, isAttributeChar c = false

theorem isAttributeChar_of_isBlank {c : Char} (blank : isBlank c = true) :
    isAttributeChar c = false := by simp [isAttributeChar, blank]

theorem gapLength_append {gap more : Text} (blanks : ∀ c ∈ gap, isBlank c = true)
    (gapless : gapLength more = 0) : gapLength (gap ++ more) = gap.length := by
  induction gap with
  | nil => exact gapless
  | cons c rest ih =>
    have blank := blanks c List.mem_cons_self
    rw [List.cons_append, gapLength, if_pos (by simp [blank]),
      ih fun d member => blanks d (List.mem_cons_of_mem _ member)]
    · rfl
    · rintro others rfl -
      exact absurd blank (by decide)

namespace Bounded

variable {gap more : Text} (bounded : Bounded gap more)
include bounded

theorem head_append : ∀ c ∈ (gap ++ more).head?, isAttributeChar c = false := by
  intro c first
  cases gap with
  | nil => exact bounded.apart rfl c first
  | cons d rest =>
    obtain rfl : d = c := by simpa using first
    exact isAttributeChar_of_isBlank (bounded.blanks d List.mem_cons_self)

theorem attributeValue_append (noSign : more.head? ≠ some '=') :
    attributeValue (gap ++ more) = ([], 0) := by
  have before : (gap ++ more).takeWhile isBlank = gap :=
    takeWhile_append_of_head? bounded.blanks bounded.head
  have signs : more.takeWhile (· == '=') = [] := by
    cases more with
    | nil => rfl
    | cons c rest => simpa using noSign
  simp [attributeValue, before, signs]

end Bounded

/-- A value in quotes is read up to its second quote. -/
theorem attributeValue_quoted {quote : Char} {body : Text} (opens : isQuote quote = true)
    (inside : quote ∉ body) (behind : Text) :
    attributeValue ('=' :: quote :: (body ++ quote :: behind)) = (body, body.length + 3) := by
  have visible : isBlank quote = false ∧ quote ≠ '=' := by
    simp only [isQuote, Bool.or_eq_true, beq_iff_eq] at opens
    rcases opens with rfl | rfl <;> decide
  have value : (body ++ quote :: behind).takeWhile (· != quote) = body := by
    refine takeWhile_append_of_head? (fun c member => ?_) (by simp)
    exact bne_iff_ne.mpr fun same => inside (same ▸ member)
  have sign : isBlank '=' = false := by decide
  simp [attributeValue, sign, visible, opens, value]
  omega

theorem TagAttribute.Sound.attributeValue_append {a : TagAttribute} (sound : a.Sound)
    {gap more : Text} (bounded : Bounded gap more)
    (noSign : a.value = none → more.head? ≠ some '=') :
    attributeValue (a.valueText ++ (gap ++ more)) =
      ((a.value.map Prod.snd).getD [], a.valueText.length) := by
  unfold TagAttribute.valueText
  cases value : a.value with
  | none => exact bounded.attributeValue_append (noSign value)
  | some v =>
    obtain ⟨opens, inside⟩ := sound.quoted v value
    have read := attributeValue_quoted opens inside (gap ++ more)
    simpa using read

theorem TagAttribute.head?_valueText_append (a : TagAttribute) {gap more : Text}
    (bounded : Bounded gap more) :
    ∀ c ∈ (a.valueText ++ (gap ++ more)).head?, isAttributeChar c = false := by
  unfold TagAttribute.valueText
  cases a.value with
  | none => exact bounded.head_append
  | some v =>
    intro c first
    obtain rfl : '=' = c := by simpa using first
    decide

/-- An attribute is read with the blanks behind it. -/
theorem attribute?_text {a : TagAttribute} (sound : a.Sound) {previous : Char}
    (separator : isSeparator previous = true) {gap more : Text} (bounded : Bounded gap more)
    (noSign : a.value = none → more.head? ≠ some '=') :
    attribute? previous (a.text ++ (gap ++ more)) = some (a.pair, (a.text ++ gap).length) := by
  obtain ⟨c, rest, split, first, chars⟩ := sound.named.cons
  have name : (rest ++ (a.valueText ++ (gap ++ more))).takeWhile isAttributeChar = rest :=
    takeWhile_append_of_head? chars (a.head?_valueText_append bounded)
  have value := sound.attributeValue_append bounded noSign
  have behind := gapLength_append bounded.blanks bounded.gapless
  rw [TagAttribute.text, TagAttribute.pair, split, List.append_assoc, List.cons_append, attribute?,
    if_neg (by simp [separator, first])]
  simp only [name, List.length_cons, Nat.add_sub_cancel, List.drop_left, value, behind]
  simp [Nat.add_assoc, Nat.add_comm, Nat.add_left_comm]

/-! ## Several attributes -/

theorem attributesFrom_skip (previous : Char) (x y : Text) :
    attributesFrom x.length previous (x ++ y) =
      ((attributesFrom 0 (x.getLast?.getD previous) y).1,
        (attributesFrom 0 (x.getLast?.getD previous) y).2 + x.length) := by
  induction x generalizing previous with
  | nil => rfl
  | cons c rest ih =>
    have last : (c :: rest).getLast?.getD previous = rest.getLast?.getD c := by
      cases rest <;> simp [List.getLast?_cons]
    rw [last, List.length_cons, List.cons_append, attributesFrom, if_pos (by omega)]
    simp only [Nat.add_sub_cancel, ih]
    simp [Nat.add_assoc]

/-- An attribute and the blanks behind it are read first. -/
theorem attributesFrom_text {a : TagAttribute} (sound : a.Sound) {previous : Char}
    (separator : isSeparator previous = true) {gap more : Text} (bounded : Bounded gap more)
    (noSign : a.value = none → more.head? ≠ some '=') :
    attributesFrom 0 previous (a.text ++ (gap ++ more)) =
      (a.pair :: (attributesFrom 0 ((a.text ++ gap).getLast?.getD previous) more).1,
        (attributesFrom 0 ((a.text ++ gap).getLast?.getD previous) more).2 +
          (a.text ++ gap).length) := by
  have first := attribute?_text sound separator bounded noSign
  obtain ⟨c, rest, split⟩ : ∃ c rest, a.text ++ gap = c :: rest := by
    obtain ⟨c, others, name, -⟩ := sound.named.cons
    exact ⟨c, others ++ a.valueText ++ gap, by simp [TagAttribute.text, name]⟩
  have last : (c :: rest).getLast?.getD previous = rest.getLast?.getD c := by
    cases rest <;> simp [List.getLast?_cons]
  rw [← List.append_assoc, split, List.cons_append] at first ⊢
  rw [attributesFrom, if_neg (by omega), first, last]
  simp only [List.length_cons, Nat.add_sub_cancel, attributesFrom_skip]
  simp [Nat.add_assoc]

/-- What a tag ends with. -/
inductive Ending : Text → Prop
  | plain (rest : Text) : Ending ('>' :: rest)
  | slash (rest : Text) : Ending ('/' :: '>' :: rest)

/-- The end of a tag, with or without a slash. -/
def endingText (slash : Bool) : Text := if slash then ['/', '>'] else ['>']

theorem ending_append (slash : Bool) (rest : Text) : Ending (endingText slash ++ rest) := by
  cases slash
  · exact .plain rest
  · exact .slash rest

theorem Ending.attributesFrom_eq {ending : Text} (ends : Ending ending) (previous : Char) :
    attributesFrom 0 previous ending = ([], 0) := by
  cases ends <;> simp [attributesFrom, attribute?]

theorem Ending.bounded {ending : Text} (ends : Ending ending) {tail : Text}
    (blanks : ∀ c ∈ tail, isBlank c = true) : Bounded tail ending := by
  cases ends with
  | plain rest =>
    refine ⟨blanks, fun c first => ?_, rfl, fun _ c first => ?_⟩
    all_goals
      obtain rfl : '>' = c := by simpa using first
      decide
  | slash rest =>
    refine ⟨blanks, fun c first => ?_, rfl, fun _ c first => ?_⟩
    all_goals
      obtain rfl : '/' = c := by simpa using first
      decide

theorem Ending.noSign {ending : Text} (ends : Ending ending) : ending.head? ≠ some '=' := by
  cases ends <;> simp

/-- Attributes with `gap` between them and `tail` behind the last one. -/
def slotsText (gap tail : Text) : List TagAttribute → Text
  | [] => []
  | [last] => last.text ++ tail
  | a :: rest => a.text ++ (gap ++ slotsText gap tail rest)

section Slots

variable {gap tail : Text} (gapBlanks : ∀ c ∈ gap, isBlank c = true) (gapSome : gap ≠ [])
variable {as : List TagAttribute} (sound : ∀ a ∈ as, a.Sound)
include gapBlanks gapSome sound

theorem bounded_slotsText (tail : Text) {a : TagAttribute} (first : a ∈ as.head?) (ending : Text) :
    Bounded gap (slotsText gap tail as ++ ending) ∧
      (slotsText gap tail as ++ ending).head? = a.name.head? := by
  obtain ⟨rest, rfl⟩ := List.head?_eq_some_iff.mp first
  obtain ⟨c, others, name, here, -⟩ := (sound a (by simp)).named.cons
  obtain ⟨more, text⟩ : ∃ more, slotsText gap tail (a :: rest) ++ ending = c :: more := by
    cases rest <;> simp [slotsText, TagAttribute.text, name]
  rw [text, name]
  refine ⟨⟨gapBlanks, ?_, ?_, fun none => absurd none gapSome⟩, rfl⟩
  · intro d first
    obtain rfl : c = d := by simpa using first
    exact here.1
  · rw [gapLength]
    · simp [here]
    · exact fun _ slash => absurd slash here.2.1

/-- Attributes are read in their order. -/
theorem attributesFrom_slotsText (separate : TagAttribute.Separate as)
    (tailBlanks : ∀ c ∈ tail, isBlank c = true) {ending : Text} (ends : Ending ending)
    {previous : Char} (separator : as ≠ [] → isSeparator previous = true) :
    attributesFrom 0 previous (slotsText gap tail as ++ ending) =
      (as.map TagAttribute.pair, (slotsText gap tail as).length) := by
  induction as generalizing previous with
  | nil => exact ends.attributesFrom_eq previous
  | cons a rest ih =>
    have here := sound a List.mem_cons_self
    have others := fun b member => sound b (List.mem_cons_of_mem a member)
    cases rest with
    | nil =>
      have read := attributesFrom_text here (separator (by simp)) (ends.bounded tailBlanks)
        fun _ => ends.noSign
      rw [slotsText, List.append_assoc, read, ends.attributesFrom_eq]
      simp
    | cons b more =>
      obtain ⟨bounded, start⟩ := bounded_slotsText gapBlanks gapSome others tail rfl ending
      have read := attributesFrom_text here (separator (by simp)) bounded
        fun alone => start ▸ separate.1 alone
      have last : isSeparator ((a.text ++ gap).getLast?.getD previous) = true := by
        obtain ⟨c, final⟩ := Option.ne_none_iff_exists'.mp (mt List.getLast?_eq_none_iff.mp gapSome)
        have blank := gapBlanks c (List.mem_of_getLast? final)
        simp [List.getLast?_append, final, isSeparator, blank]
      rw [slotsText, List.append_assoc, List.append_assoc, read,
        ih others separate.2 fun _ => last]
      · simp
        omega
      · simp

end Slots

/-! ## Start tags -/

/-- A name that a tag can have. -/
structure TagName (name : Text) : Prop where
  letter : ∃ c ∈ name.head?, isLetter c = true
  chars : ∀ c ∈ name, isNameChar c = true

/-- What may stand between the parts of a tag: blanks, and at least one before each attribute. -/
structure Spacing (gap tail : Text) : Prop where
  some : gap ≠ []
  gap : ∀ c ∈ gap, isMarkupBlank c = true
  tail : ∀ c ∈ tail, isMarkupBlank c = true

/-- A start tag with `gap` before each attribute and `tail` before its end. -/
def tagText (name gap tail : Text) (as : List TagAttribute) (slash : Bool) : Text :=
  '<' :: name ++ as.flatMap (fun a => gap ++ a.text) ++ tail ++ endingText slash

/-- The blanks behind the name of a tag. -/
def leadText (gap tail : Text) (as : List TagAttribute) : Text := if as.isEmpty then tail else gap

theorem flatMap_text_append (gap tail : Text) (as : List TagAttribute) :
    as.flatMap (fun a => gap ++ a.text) ++ tail = leadText gap tail as ++ slotsText gap tail as := by
  induction as with
  | nil => simp [leadText, slotsText]
  | cons a rest ih =>
    cases rest with
    | nil => simp [leadText, slotsText]
    | cons b more =>
      rw [List.flatMap_cons, List.append_assoc, ih]
      simp [leadText, slotsText]

theorem isNameChar_of_isMarkupBlank {c : Char} (blank : isMarkupBlank c = true) :
    isNameChar c = false := by
  simp only [isMarkupBlank, Bool.or_eq_true, beq_iff_eq] at blank
  rcases blank with (((rfl | rfl) | rfl) | rfl) | rfl <;> decide

theorem tagText_append (name gap tail : Text) (as : List TagAttribute) (slash : Bool) (rest : Text) :
    tagText name gap tail as slash ++ rest = '<' :: (name ++ (leadText gap tail as ++
      (slotsText gap tail as ++ (endingText slash ++ rest)))) := by
  rw [tagText, List.append_assoc _ _ tail, flatMap_text_append]
  simp

theorem length_tagText (name gap tail : Text) (as : List TagAttribute) (slash : Bool) :
    (tagText name gap tail as slash).length = 1 + name.length + (leadText gap tail as).length +
      (slotsText gap tail as).length + (endingText slash).length := by
  rw [tagText, List.append_assoc _ _ tail, flatMap_text_append]
  simp
  omega

theorem head?_endingText {slash : Bool} {rest : Text} {c : Char}
    (first : (endingText slash ++ rest).head? = some c) : isNameChar c = false := by
  cases slash
  · obtain rfl : '>' = c := by simpa [endingText] using first
    decide
  · obtain rfl : '/' = c := by simpa [endingText] using first
    decide

section Tags

variable {name gap tail : Text} (named : TagName name) (spacing : Spacing gap tail)
variable {as : List TagAttribute}
include spacing

theorem isMarkupBlank_of_mem_leadText {c : Char} (member : c ∈ leadText gap tail as) :
    isMarkupBlank c = true := by
  unfold leadText at member
  split at member
  · exact spacing.tail c member
  · exact spacing.gap c member

theorem isSeparator_leadText (some : as ≠ []) :
    isSeparator ((('<' :: (name ++ leadText gap tail as)).getLast?).getD '<') = true := by
  have spaced : leadText gap tail as = gap := by simp [leadText, some]
  obtain ⟨c, final⟩ := Option.ne_none_iff_exists'.mp (mt List.getLast?_eq_none_iff.mp spacing.some)
  have blank := isBlank_of_isMarkupBlank (spacing.gap c (List.mem_of_getLast? final))
  rw [spaced, ← List.cons_append, List.getLast?_append, final]
  simp [isSeparator, blank]

include named

/-- The name of a tag ends where the blanks behind it start, or else the end of the tag. -/
theorem takeWhile_tagText (slash : Bool) (rest : Text) :
    (name ++ (leadText gap tail as ++ (slotsText gap tail as ++
      (endingText slash ++ rest)))).takeWhile isNameChar = name := by
  refine takeWhile_append_of_head? named.chars fun c first => ?_
  cases lead : leadText gap tail as with
  | nil =>
    have none : as = [] := by
      cases as with
      | nil => rfl
      | cons a others => exact absurd lead spacing.some
    rw [lead, none] at first
    exact head?_endingText first
  | cons d others =>
    rw [lead] at first
    obtain rfl : d = c := by simpa using first
    have member : d ∈ leadText gap tail as := by simp [lead]
    exact isNameChar_of_isMarkupBlank (isMarkupBlank_of_mem_leadText spacing member)

variable (sound : ∀ a ∈ as, a.Sound) (separate : TagAttribute.Separate as)
include sound separate

/-- A start tag is read whole, with the content behind it where that is raw. -/
theorem startTag?_tagText (slash : Bool) (rest : Text) :
    startTag? (tagText name gap tail as slash ++ rest) =
      let start := Token.start (Text.lower name) (Fields.putAll [] (as.map TagAttribute.pair)) slash
      let length := (tagText name gap tail as slash).length
      if !slash && rawElements.elem (Text.lower name) then
        some (start :: (rawContent (Text.lower name) rest).1,
          length + (rawContent (Text.lower name) rest).2)
      else some ([start], length) := by
  have gapBlank : ∀ c ∈ gap, isBlank c = true := fun c member =>
    isBlank_of_isMarkupBlank (spacing.gap c member)
  have tailBlank : ∀ c ∈ tail, isBlank c = true := fun c member =>
    isBlank_of_isMarkupBlank (spacing.tail c member)
  have ends := ending_append slash rest
  have bounded : Bounded (leadText gap tail as)
      (slotsText gap tail as ++ (endingText slash ++ rest)) := by
    cases as with
    | nil => exact ends.bounded tailBlank
    | cons a others => exact (bounded_slotsText gapBlank spacing.some sound tail rfl _).1
  have tagName : (name ++ (leadText gap tail as ++ (slotsText gap tail as ++
      (endingText slash ++ rest)))).takeWhile isNameChar = name :=
    takeWhile_tagText named spacing slash rest
  have lead := gapLength_append bounded.blanks bounded.gapless
  have separator : as ≠ [] →
      isSeparator ((('<' :: (name ++ leadText gap tail as)).getLast?).getD '<') = true :=
    isSeparator_leadText spacing
  have found := attributesFrom_slotsText gapBlank spacing.some sound separate tailBlank ends separator
  have afterName : ('<' :: (name ++ (leadText gap tail as ++ (slotsText gap tail as ++
      (endingText slash ++ rest))))).drop (1 + name.length) =
      leadText gap tail as ++ (slotsText gap tail as ++ (endingText slash ++ rest)) := by
    rw [Nat.add_comm, List.drop_succ_cons, List.drop_left]
  have before : ('<' :: (name ++ (leadText gap tail as ++ (slotsText gap tail as ++
      (endingText slash ++ rest))))).take (1 + name.length + (leadText gap tail as).length) =
      '<' :: (name ++ leadText gap tail as) := by
    rw [show 1 + name.length + (leadText gap tail as).length =
      (name ++ leadText gap tail as).length + 1 by simp; omega, List.take_succ_cons,
      ← List.append_assoc, List.take_left]
  have behind : ('<' :: (name ++ (leadText gap tail as ++ (slotsText gap tail as ++
      (endingText slash ++ rest))))).drop (1 + name.length + (leadText gap tail as).length +
        (slotsText gap tail as).length) = endingText slash ++ rest := by
    rw [show 1 + name.length + (leadText gap tail as).length + (slotsText gap tail as).length =
      (name ++ (leadText gap tail as ++ slotsText gap tail as)).length + 1 by simp; omega,
      List.drop_succ_cons]
    simp
  rw [tagText_append, length_tagText, startTag?]
  simp only [List.drop_succ_cons, List.drop_zero, tagName, afterName, lead, before, found,
    List.drop_left, behind]
  cases slash with
  | false => simp [endingText]
  | true => simp [endingText]

end Tags

/-! ## End tags -/

theorem TagName.cons {name : Text} (named : TagName name) :
    ∃ c rest, name = c :: rest ∧ isLetter c = true := by
  obtain ⟨c, first, letter⟩ := named.letter
  obtain ⟨rest, rfl⟩ := List.head?_eq_some_iff.mp first
  exact ⟨c, rest, rfl, letter⟩

/-- Whether an element of a name can have an end tag: blanks behind a plain name would belong to the
tag instead. -/
def isClosable (name : Text) : Bool :=
  (name.dropWhile isPlainNameChar).isEmpty || !(name.dropWhile isPlainNameChar).all isBlank

theorem isBlank_of_isLetter {c : Char} (letter : isLetter c = true) : isBlank c = false := by
  simp only [isLetter, Bool.or_eq_true, Bool.and_eq_true, decide_eq_true_eq, Char.le_def,
    UInt32.le_iff_toNat_le] at letter
  simp only [isBlank, Bool.or_eq_false_iff, Bool.and_eq_false_iff, decide_eq_false_iff_not,
    beq_eq_false_iff_ne, Char.toNat]
  have small : 'a'.val.toNat = 97 ∧ 'z'.val.toNat = 122 ∧ 'A'.val.toNat = 65 ∧ 'Z'.val.toNat = 90 := by
    decide
  omega

/-- Behind the plain part of a name that is not plain the tag does not end. -/
theorem looseEnd?_name {behind : Text} (chars : ∀ c ∈ behind, isNameChar c = true)
    (visible : ¬ ∀ c ∈ behind, isBlank c = true) (rest : Text) :
    looseEnd? (behind ++ rest) = none := by
  obtain ⟨blanks, d, more, rfl, run, other⟩ := exists_first visible
  have notEnd : d ≠ '>' := by
    rintro rfl
    exact absurd (chars '>' (by simp)) (by decide)
  have before : (blanks ++ d :: (more ++ rest)).takeWhile isBlank = blanks :=
    takeWhile_append_of_head? run (by simpa using other)
  rw [List.append_assoc, List.cons_append, looseEnd?]
  simp only [before, List.drop_left]
  simp [tagEnd?, notEnd]

/-- The name of an end tag is read as a plain one, if it is. -/
theorem plainEndTag?_eq {name : Text} (named : TagName name) (closable : isClosable name = true)
    (rest : Text) :
    plainEndTag? (name ++ '>' :: rest) =
      if ∀ c ∈ name, isPlainNameChar c = true then some (Text.lower name, name.length + 3)
      else none := by
  obtain ⟨c, more, rfl, letter⟩ := named.cons
  have blanks : (c :: more ++ '>' :: rest).takeWhile isBlank = [] := by
    rw [List.cons_append, List.takeWhile_cons_of_neg]
    simpa using isBlank_of_isLetter letter
  by_cases plain : ∀ d ∈ c :: more, isPlainNameChar d = true
  · have word : (c :: more ++ '>' :: rest).takeWhile isPlainNameChar = c :: more :=
      takeWhile_append_of_head? plain (by simp; decide)
    have ends : looseEnd? ('>' :: rest) = some 1 := by
      simp [looseEnd?, tagEnd?, show isBlank '>' = false by decide]
    rw [if_pos plain, plainEndTag?]
    simp only [blanks, List.length_nil, List.drop_zero, word, List.drop_left, letter, ends]
    simp
    omega
  · obtain ⟨before, d, behind, split, run, other⟩ := exists_first plain
    have dropped : (c :: more).dropWhile isPlainNameChar = d :: behind := by
      rw [split, List.dropWhile_append_of_pos run, List.dropWhile_cons_of_neg (by simp [other])]
    have visible : ¬ ∀ e ∈ d :: behind, isBlank e = true := by
      intro all
      rw [isClosable, dropped, List.all_eq_true.mpr all] at closable
      cases closable
    have chars : ∀ e ∈ d :: behind, isNameChar e = true := fun e member =>
      named.chars e (split ▸ List.mem_append_right before member)
    have ends := looseEnd?_name chars visible ('>' :: rest)
    have word : (c :: more ++ '>' :: rest).takeWhile isPlainNameChar = before := by
      rw [split, List.append_assoc]
      exact takeWhile_append_of_head? run (by simpa using other)
    rw [if_neg plain, plainEndTag?]
    simp only [blanks, List.length_nil, List.drop_zero, word]
    rw [split, List.append_assoc, List.drop_left]
    cases before with
    | nil => rfl
    | cons e others => simp only [ends]; simp

/-- An end tag is read whole. -/
theorem endTag?_eq {name : Text} (named : TagName name) (closable : isClosable name = true)
    (rest : Text) :
    endTag? ('<' :: '/' :: (name ++ '>' :: rest)) =
      some ([.finish (Text.lower name)], name.length + 3) := by
  have read := plainEndTag?_eq named closable rest
  have closes : (name ++ '>' :: rest).elem '>' = true := by simp
  have word : (name ++ '>' :: rest).takeWhile isNameChar = name :=
    takeWhile_append_of_head? named.chars (by simp; decide)
  rw [endTag?]
  simp only [List.drop_succ_cons, List.drop_zero, closes, read]
  by_cases plain : ∀ c ∈ name, isPlainNameChar c = true
  · simp only [if_pos plain]
    rfl
  · obtain ⟨c, more, rfl, letter⟩ := named.cons
    have notEnd : c ≠ '>' := by
      rintro rfl
      exact absurd letter (by decide)
    simp only [if_neg plain, word, List.drop_left]
    simp [letter, upTo?, tagEnd?]
    omega

/-! ## Tokens -/

theorem tokensFrom_skip (late : Bool) (x y : Text) :
    tokensFrom late x.length (x ++ y) = tokensFrom late 0 y := by
  induction x with
  | nil => rfl
  | cons c rest ih => simpa [tokensFrom] using ih

/-- A construct is read whole, and what stands behind it on its own. -/
theorem tokensFrom_append {late : Bool} {c : Char} {x y : Text} {ts : List Token}
    (step : readAt late c (x ++ y) = ⟨ts, x.length + 1, late⟩) :
    tokensFrom late 0 (c :: x ++ y) = ts ++ tokensFrom late 0 y := by
  rw [List.cons_append, tokensFrom, if_neg (by omega), step]
  simp [tokensFrom_skip]

theorem tokensFrom_token {late : Bool} {c : Char} {x y : Text} {token : Token}
    (step : readAt late c (x ++ y) = ⟨[token], x.length + 1, late⟩) :
    tokensFrom late 0 (c :: x ++ y) = token :: tokensFrom late 0 y := tokensFrom_append step

/-- A start tag is read by its own reader. -/
theorem readTag_letter {late : Bool} {c : Char} (letter : isLetter c = true) {rest : Text}
    {ts : List Token} {length : Nat} (read : startTag? ('<' :: c :: rest) = some (ts, length)) :
    readTag late ('<' :: c :: rest) = ⟨ts, length, late⟩ := by
  have notSlash : c ≠ '/' := by rintro rfl; exact absurd letter (by decide)
  have notMark : c ≠ '?' := by rintro rfl; exact absurd letter (by decide)
  have notBang : c ≠ '!' := by rintro rfl; exact absurd letter (by decide)
  simp [readTag, letter, read]

section Tokens

variable {name : Text} (named : TagName name) (late : Bool)
include named

/-- A start tag is read as one token, with the content behind it where that is raw. -/
theorem tokensFrom_tagText {gap tail : Text} (spacing : Spacing gap tail) {as : List TagAttribute}
    (sound : ∀ a ∈ as, a.Sound) (separate : TagAttribute.Separate as) (slash : Bool)
    (notRaw : slash = true ∨ rawElements.elem (Text.lower name) = false) (rest : Text) :
    tokensFrom late 0 (tagText name gap tail as slash ++ rest) =
      .start (Text.lower name) (Fields.putAll [] (as.map TagAttribute.pair)) slash ::
        tokensFrom late 0 rest := by
  have read := startTag?_tagText named spacing sound separate slash rest
  have plain : (!slash && rawElements.elem (Text.lower name)) = false := by
    rcases notRaw with rfl | other
    · rfl
    · rw [other, Bool.and_false]
  obtain ⟨c, more, split, letter⟩ := named.cons
  obtain ⟨behind, text⟩ : ∃ behind, tagText name gap tail as slash = '<' :: c :: behind := by
    simp [tagText, split]
  simp only [plain] at read
  rw [text] at read ⊢
  refine tokensFrom_token ?_
  have step : readTag late _ = _ := readTag_letter letter read
  simpa [readAt] using step

/-- An end tag is read as one token. -/
theorem tokensFrom_endTag (closable : isClosable name = true) (rest : Text) :
    tokensFrom late 0 ('<' :: '/' :: name ++ ['>'] ++ rest) =
      .finish (Text.lower name) :: tokensFrom late 0 rest := by
  have read := endTag?_eq named closable rest
  refine tokensFrom_token ?_
  simp [readAt, readTag, read]

end Tokens

end StaticSite.Markup
