import Mathlib.Data.List.Chain
import StaticSite.Markup.Layout
import StaticSite.Proofs.Markup.Escaping
import StaticSite.Proofs.Markup.Tag
import StaticSite.Proofs.Text.LowerCase

/-! # Attributes that are written and read

Attributes that have been read are read back from either of the ways in which they are written:
with a bare name for an empty value, and with every value in quotes and in the order of the names.
Writing them the second way once more changes nothing.
-/

namespace StaticSite

namespace Fields

variable {κ α : Type} [BEq κ] [LawfulBEq κ]

theorem put_of_not_mem {key : κ} (value : α) {fields : List (κ × α)} (absent : key ∉ keys fields) :
    put key value fields = fields ++ [(key, value)] := by
  induction fields with
  | nil => rfl
  | cons field rest ih =>
    simp only [keys, List.map_cons, List.mem_cons, not_or] at absent
    rw [put, if_neg (by simpa using Ne.symm absent.1), ih absent.2]
    rfl

/-- Fields with different keys are set one after the other. -/
theorem putAll_of_nodup {fields updates : List (κ × α)} (distinct : (keys (fields ++ updates)).Nodup) :
    putAll fields updates = fields ++ updates := by
  induction updates generalizing fields with
  | nil => simp [putAll]
  | cons update rest ih =>
    obtain ⟨key, value⟩ := update
    have absent : key ∉ keys fields := by
      intro member
      simp only [keys, List.map_append, List.map_cons] at distinct
      exact (List.nodup_append.mp distinct).2.2 key member key List.mem_cons_self rfl
    have step : putAll fields ((key, value) :: rest) = putAll (put key value fields) rest := rfl
    rw [step, put_of_not_mem value absent, ih (by simpa using distinct)]
    simp

/-- Setting keys never makes two fields with one key. -/
theorem nodup_keys_putAll {fields : List (κ × α)} (distinct : (keys fields).Nodup)
    (updates : List (κ × α)) : (keys (putAll fields updates)).Nodup := by
  induction updates generalizing fields with
  | nil => exact distinct
  | cons update rest ih =>
    refine ih ?_
    by_cases present : update.1 ∈ keys fields
    · rwa [keys_put_of_mem present]
    · rw [keys_put_of_not_mem present]
      refine List.nodup_append.mpr ⟨distinct, by simp, fun k member other here => ?_⟩
      rintro rfl
      exact present (List.mem_singleton.mp here ▸ member)

theorem mem_keys_putAll {fields updates : List (κ × α)} {key : κ}
    (member : key ∈ keys (putAll fields updates)) : key ∈ keys fields ∨ key ∈ keys updates := by
  induction updates generalizing fields with
  | nil => exact .inl member
  | cons update rest ih =>
    rcases ih member with before | later
    · by_cases present : update.1 ∈ keys fields
      · rw [keys_put_of_mem present] at before
        exact .inl before
      · rw [keys_put_of_not_mem present] at before
        rcases List.mem_append.mp before with inside | here
        · exact .inl inside
        · exact .inr (by simp [keys, List.mem_singleton.mp here])
    · exact .inr (List.mem_cons_of_mem _ later)

/-- Setting a key to the value it has changes nothing. -/
theorem put_of_lookup {key : κ} {value : α} {fields : List (κ × α)}
    (found : fields.lookup key = some value) : put key value fields = fields := by
  induction fields with
  | nil => cases found
  | cons field rest ih =>
    obtain ⟨k, v⟩ := field
    by_cases same : k = key
    · subst same
      obtain rfl : v = value := by simpa using found
      rw [put, if_pos BEq.rfl]
    · rw [List.lookup_cons, beq_false_of_ne (Ne.symm same)] at found
      rw [put, if_neg (by simpa using same), ih found]

theorem lookup_eq_some_iff {key : κ} {value : α} {fields : List (κ × α)}
    (distinct : (keys fields).Nodup) : fields.lookup key = some value ↔ (key, value) ∈ fields := by
  induction fields with
  | nil => simp
  | cons field rest ih =>
    obtain ⟨k, v⟩ := field
    obtain ⟨absent, others⟩ := List.nodup_cons.mp distinct
    by_cases same : key = k
    · subst same
      have elsewhere : (key, value) ∉ rest := fun member =>
        absent (List.mem_map.mpr ⟨_, member, rfl⟩)
      simp [elsewhere, eq_comm]
    · rw [List.lookup_cons, beq_false_of_ne same, List.mem_cons, Prod.mk.injEq, ih others]
      simp [same]

theorem mem_keys_of_lookup {key : κ} {value : α} {fields : List (κ × α)}
    (found : fields.lookup key = some value) : key ∈ keys fields := by
  induction fields with
  | nil => cases found
  | cons field rest ih =>
    obtain ⟨k, v⟩ := field
    by_cases same : key = k
    · exact same ▸ List.mem_cons_self
    · rw [List.lookup_cons, beq_false_of_ne same] at found
      exact List.mem_cons_of_mem _ (ih found)

/-- The order of fields makes no difference to their values. -/
theorem lookup_perm {fields others : List (κ × α)}
    (same : fields.Perm others) (distinct : (keys fields).Nodup) (key : κ) :
    fields.lookup key = others.lookup key := by
  have apart : (keys others).Nodup := (same.map _).nodup_iff.mp distinct
  refine Option.ext fun value => ?_
  rw [lookup_eq_some_iff distinct, lookup_eq_some_iff apart, same.mem_iff]

end Fields

namespace Markup

/-! ## Quoted values -/

theorem contentReference_eq_none {c : Char} (other : c ∉ ['&', '<', '>']) :
    Text.contentReference c = none := by
  unfold Text.contentReference
  split <;> simp_all

/-- The references of a value in double quotes. -/
def doubleReference (c : Char) : Option String :=
  if c = '"' then some "&quot;" else Text.contentReference c

/-- The quote around a value and what stands inside it. -/
def quotedParts (value : Text) : Char × Text :=
  if '"' ∉ Text.escapeContent value then ('"', Text.escapeContent value)
  else if '\'' ∉ Text.escapeContent value then ('\'', Text.escapeContent value)
  else ('"', Text.replaceEach doubleReference value)

theorem replaceEach_escapeContent (t : Text) :
    Text.replaceEach (fun c => if c = '"' then some "&quot;" else none) (Text.escapeContent t) =
      Text.replaceEach doubleReference t := by
  induction t with
  | nil => rfl
  | cons c rest ih =>
    have split (reference : Char → Option String) : Text.replaceEach reference (c :: rest) =
        Text.replaceEach reference [c] ++ Text.replaceEach reference rest :=
      Text.replaceEach_append reference [c] rest
    rw [Text.escapeContent, split, split, Text.replaceEach_append]
    refine congrArg₂ _ ?_ ih
    by_cases special : c ∈ ['"', '&', '<', '>']
    · simp only [List.mem_cons, List.not_mem_nil, or_false] at special
      rcases special with rfl | rfl | rfl | rfl <;> rfl
    · simp only [List.mem_cons, List.not_mem_nil, or_false, not_or] at special
      have plain := contentReference_eq_none (c := c) (by simp [special])
      simp [Text.replaceEach, doubleReference, plain, special]

theorem quotedAttribute_eq (value : Text) : Text.quotedAttribute value =
    (quotedParts value).1 :: (quotedParts value).2 ++ [(quotedParts value).1] := by
  unfold Text.quotedAttribute quotedParts
  rw [← replaceEach_escapeContent]
  by_cases double : '"' ∈ Text.escapeContent value
  · by_cases single : '\'' ∈ Text.escapeContent value <;> simp [double, single]
  · simp [double]

theorem double_not_mem_replaceEach (t : Text) : '"' ∉ Text.replaceEach doubleReference t := by
  intro member
  obtain ⟨c, -, inside⟩ := List.mem_flatMap.mp member
  by_cases special : c ∈ ['"', '&', '<', '>']
  · simp only [List.mem_cons, List.not_mem_nil, or_false] at special
    rcases special with rfl | rfl | rfl | rfl <;> revert inside <;> decide
  · simp only [List.mem_cons, List.not_mem_nil, or_false, not_or] at special
    have plain := contentReference_eq_none (c := c) (by simp [special])
    simp [doubleReference, plain, special] at inside
    exact special.1 inside.symm

theorem quotedParts_sound (value : Text) :
    Markup.isQuote (quotedParts value).1 = true ∧ (quotedParts value).1 ∉ (quotedParts value).2 := by
  unfold quotedParts
  split
  · next none => exact ⟨rfl, none⟩
  · split
    · next none => exact ⟨rfl, none⟩
    · exact ⟨rfl, double_not_mem_replaceEach value⟩

theorem resolves_doubleReference : Resolves doubleReference := by
  intro c
  unfold doubleReference
  by_cases double : c = '"'
  · rw [if_pos double]
    subst double
    exact ⟨_, rfl, valueReference?_named "quot" (by decide) (by decide) rfl⟩
  · rw [if_neg double]
    exact resolves_contentReference c

theorem resolve_quotedParts (value : Text) : resolve (quotedParts value).2 = value := by
  unfold quotedParts
  split
  · exact resolve_replaceEach resolves_contentReference value
  · split
    · exact resolve_replaceEach resolves_contentReference value
    · exact resolve_replaceEach resolves_doubleReference value

/-! ## Attributes as they stand in a tag -/

/-- Attributes that have been read: their names differ, are names, and are in lower case. -/
structure SoundAttributes (attributes : Attributes) : Prop where
  distinct : (Fields.keys attributes).Nodup
  named : ∀ a ∈ attributes, TagAttribute.Named a.1 ∧ Text.lower a.1 = a.1

/-- An attribute as it is written: `bare` when an empty value is left out. -/
def attributeTag (bare : Bool) (a : Text × Text) : TagAttribute :=
  ⟨a.1, if bare && a.2.isEmpty then none else some (quotedParts a.2)⟩

theorem text_attributeTag (a : Text × Text) :
    (attributeTag true a).text = attributeText a.1 a.2 ∧
      (attributeTag false a).text = a.1 ++ "=" ++ Text.quotedAttribute a.2 := by
  obtain ⟨name, value⟩ := a
  unfold attributeTag TagAttribute.text TagAttribute.valueText attributeText
  rw [quotedAttribute_eq]
  cases value <;> simp

theorem pair_attributeTag (bare : Bool) {a : Text × Text} (lower : Text.lower a.1 = a.1) :
    (attributeTag bare a).pair = a := by
  obtain ⟨name, value⟩ := a
  refine Prod.ext lower ?_
  unfold attributeTag TagAttribute.pair
  split
  · next empty =>
    obtain ⟨-, rfl⟩ : bare = true ∧ value = [] := by simpa using empty
    rfl
  · exact resolve_quotedParts value

/-- Attributes that are all written with a value take nothing for their values. -/
theorem separate_attributeTag (attributes : Attributes) :
    TagAttribute.Separate (attributes.map (attributeTag false)) := by
  induction attributes with
  | nil => trivial
  | cons a rest ih =>
    cases rest with
    | nil => trivial
    | cons b more => exact ⟨fun none => by simp [attributeTag] at none, ih⟩

namespace SoundAttributes

variable {attributes : Attributes} (sound : SoundAttributes attributes)
include sound

theorem attributeTag (bare : Bool) : ∀ a ∈ attributes.map (attributeTag bare), a.Sound := by
  refine List.forall_mem_map.mpr fun a member => ⟨(sound.named a member).1, fun v value => ?_⟩
  obtain ⟨-, same⟩ := Option.ite_none_left_eq_some.mp value
  obtain rfl := Option.some.inj same
  exact quotedParts_sound a.2

theorem putAll_pair (bare : Bool) : Fields.putAll []
    ((attributes.map (Markup.attributeTag bare)).map TagAttribute.pair) = attributes := by
  have pairs : (attributes.map (Markup.attributeTag bare)).map TagAttribute.pair = attributes := by
    rw [List.map_map]
    exact (List.map_congr_left fun a member =>
      pair_attributeTag bare (sound.named a member).2).trans (List.map_id _)
  rw [pairs, Fields.putAll_of_nodup (by simpa using sound.distinct), List.nil_append]

theorem of_perm {others : Attributes} (same : attributes.Perm others) : SoundAttributes others :=
  ⟨(same.map _).nodup_iff.mp sound.distinct, fun a member => sound.named a (same.mem_iff.mpr member)⟩

end SoundAttributes

/-! ## Attributes in order -/

theorem comesBefore_asymm {s t : Text} (before : comesBefore s t = true) :
    comesBefore t s = false := by
  fun_induction comesBefore s t with
  | case1 => cases before
  | case2 => rfl
  | case3 => cases before
  | case4 a as bs ih => simpa [comesBefore] using ih before
  | case5 a as b bs other =>
    have less : a.toNat < b.toNat := by simpa using before
    simp [comesBefore, Ne.symm other]
    omega

/-- Whether attributes stand in the order of their names. -/
def Ordered (attributes : Attributes) : Prop :=
  attributes.IsChain fun a b => comesBefore b.1 a.1 = false

theorem insertAttribute_perm (new : Text × Text) (attributes : Attributes) :
    (insertAttribute new attributes).Perm (new :: attributes) := by
  fun_induction insertAttribute new attributes with
  | case1 => rfl
  | case2 first rest before ih => exact (ih.cons first).trans (List.Perm.swap new first rest)
  | case3 => rfl

theorem sortAttributes_perm (attributes : Attributes) :
    (sortAttributes attributes).Perm attributes := by
  induction attributes with
  | nil => rfl
  | cons first rest ih => exact (insertAttribute_perm first _).trans (ih.cons first)

theorem ordered_insertAttribute {new : Text × Text} {attributes : Attributes}
    (ordered : Ordered attributes) : Ordered (insertAttribute new attributes) := by
  unfold Ordered at ordered ⊢
  induction attributes with
  | nil => exact .singleton new
  | cons first rest ih =>
    obtain ⟨above, others⟩ := List.isChain_cons.mp ordered
    by_cases before : comesBefore first.1 new.1 = true
    · rw [insertAttribute, if_pos before, List.isChain_cons]
      refine ⟨fun next here => ?_, ih others⟩
      cases rest with
      | nil =>
        obtain rfl : new = next := by simpa [insertAttribute] using here
        exact comesBefore_asymm before
      | cons second more =>
        by_cases later : comesBefore second.1 new.1 = true
        · obtain rfl : second = next := by simpa [insertAttribute, later] using here
          exact above second rfl
        · obtain rfl : new = next := by simpa [insertAttribute, later] using here
          exact comesBefore_asymm before
    · rw [insertAttribute, if_neg before, List.isChain_cons]
      refine ⟨fun next here => ?_, ordered⟩
      obtain rfl : first = next := by simpa using here
      simpa using before

theorem ordered_sortAttributes (attributes : Attributes) : Ordered (sortAttributes attributes) := by
  induction attributes with
  | nil => exact .nil
  | cons first rest ih => exact ordered_insertAttribute ih

/-- Attributes in order stay in it. -/
theorem sortAttributes_of_ordered {attributes : Attributes} (ordered : Ordered attributes) :
    sortAttributes attributes = attributes := by
  induction attributes with
  | nil => rfl
  | cons first rest ih =>
    obtain ⟨above, others⟩ := List.isChain_cons.mp ordered
    rw [sortAttributes, ih others]
    cases rest with
    | nil => rfl
    | cons second more => simp [insertAttribute, above second rfl]

/-! ## The encoding of the output -/

/-- Whether the place behind a character may hold a name of an encoding. -/
def isOpenPlace (previous : Option Char) : Bool :=
  match previous with
  | none => true
  | some p => isBlank p || p == ';'

theorem replaceCharset_skip (previous : Option Char) (x y : Text) :
    replaceCharset previous x.length (x ++ y) =
      replaceCharset (x.getLast?.elim previous some) 0 y := by
  induction x generalizing previous with
  | nil => rfl
  | cons c rest ih =>
    rw [List.length_cons, List.cons_append, replaceCharset, if_pos (by omega), Nat.add_sub_cancel, ih]
    cases rest <;> simp [List.getLast?_cons]

theorem replaceCharset_cons (previous : Option Char) (c : Char) (rest : Text) :
    replaceCharset previous 0 (c :: rest) =
      if isOpenPlace previous && Text.startsWith "charset=" (c :: rest) then
        "charset=" ++ outputEncoding ++
          replaceCharset (some c) (7 + ((rest.drop 7).takeWhile (· != ';')).length) rest
      else c :: replaceCharset (some c) 0 rest := by
  rw [replaceCharset, if_neg (by omega)]
  rfl

/-- The encoding is replaced where it is named. -/
theorem replaceCharset_named {previous : Option Char} (place : isOpenPlace previous = true)
    {encoding : Text} (inside : ';' ∉ encoding) {rest : Text} (ends : ∀ c ∈ rest.head?, c = ';') :
    ∃ last, replaceCharset previous 0 ("charset=" ++ encoding ++ rest) =
      "charset=" ++ outputEncoding ++ replaceCharset (some last) 0 rest := by
  have text : "charset=" ++ encoding ++ rest =
      'c' :: ('h' :: 'a' :: 'r' :: 's' :: 'e' :: 't' :: '=' :: (encoding ++ rest)) := rfl
  have word : (encoding ++ rest).takeWhile (· != ';') = encoding := by
    refine takeWhile_append_of_head? (fun c member => ?_) fun c first => by simp [ends c first]
    exact bne_iff_ne.mpr fun same => inside (same ▸ member)
  have skip := replaceCharset_skip (some 'c')
    ('h' :: 'a' :: 'r' :: 's' :: 'e' :: 't' :: '=' :: encoding) rest
  have starts : Text.startsWith "charset=" ("charset=" ++ encoding ++ rest) = true := by
    rw [List.append_assoc]
    exact List.isPrefixOf_iff_prefix.mpr (List.prefix_append _ _)
  obtain ⟨last, final⟩ : ∃ last,
      ('h' :: 'a' :: 'r' :: 's' :: 'e' :: 't' :: '=' :: encoding).getLast? = some last :=
    ⟨_, List.getLast?_eq_some_getLast (by simp)⟩
  refine ⟨last, ?_⟩
  rw [text] at starts ⊢
  rw [replaceCharset_cons, place, starts]
  simp only [List.drop_succ_cons, List.drop_zero, word, Bool.and_self, if_true]
  have count : 7 + encoding.length =
      ('h' :: 'a' :: 'r' :: 's' :: 'e' :: 't' :: '=' :: encoding).length := by
    simp
    omega
  rw [final] at skip
  rw [count]
  exact congrArg (("charset=" ++ outputEncoding) ++ ·) skip

/-- Where a place names an encoding and where it does not. -/
theorem replaceCharset_cases (previous : Option Char) (c : Char) (rest : Text) :
    (∃ encoding behind, isOpenPlace previous = true ∧ ';' ∉ encoding ∧
      (∀ d ∈ behind.head?, d = ';') ∧ c :: rest = "charset=" ++ encoding ++ behind) ∨
    (isOpenPlace previous && Text.startsWith "charset=" (c :: rest)) = false := by
  by_cases named : (isOpenPlace previous && Text.startsWith "charset=" (c :: rest)) = true
  · obtain ⟨place, starts⟩ := Bool.and_eq_true_iff.mp named
    obtain ⟨behind, whole⟩ := List.isPrefixOf_iff_prefix.mp starts
    refine .inl ⟨behind.takeWhile (· != ';'), behind.dropWhile (· != ';'), place, ?_, ?_, ?_⟩
    · intro member
      simpa using List.mem_takeWhile_imp member
    · intro d first
      simpa using head?_dropWhile behind d first
    · rw [List.append_assoc, List.takeWhile_append_dropWhile, whole]
  · exact .inr (by simpa using named)

/-- Behind a character that opens no place, a word is in the new text if it was in the old one. -/
theorem prefix_of_prefix_replaceCharset {word : Text} (closed : ∀ d ∈ word, isOpenPlace (some d) = false)
    {c : Char} (here : isOpenPlace (some c) = false) {t : Text}
    (starts : word <+: replaceCharset (some c) 0 t) : word <+: t := by
  induction word generalizing c t with
  | nil => exact List.nil_prefix
  | cons w more ih =>
    cases t with
    | nil => exact starts
    | cons d rest =>
      rw [replaceCharset_cons, here] at starts
      obtain ⟨rfl, later⟩ := List.cons_prefix_cons.mp starts
      exact List.cons_prefix_cons.mpr ⟨rfl, ih (fun e member =>
        closed e (List.mem_cons_of_mem w member)) (closed w List.mem_cons_self) later⟩

/-- A semicolon names no encoding, whatever stands before it. -/
theorem replaceCharset_of_head? {t : Text} (ends : ∀ d ∈ t.head?, d = ';')
    (previous other : Option Char) : replaceCharset previous 0 t = replaceCharset other 0 t ∧
      ∀ d ∈ (replaceCharset other 0 t).head?, d = ';' := by
  cases t with
  | nil => simp [replaceCharset]
  | cons d more =>
    obtain rfl := ends d rfl
    simp [replaceCharset_cons, Text.startsWith]

/-- Naming the encoding of the output once more changes nothing. -/
theorem replaceCharset_replaceCharset (previous : Option Char) (t : Text) :
    replaceCharset previous 0 (replaceCharset previous 0 t) = replaceCharset previous 0 t := by
  induction length : t.length using Nat.strong_induction_on generalizing t previous with
  | _ n ih =>
    cases t with
    | nil => rfl
    | cons c rest =>
      rcases replaceCharset_cases previous c rest with
        ⟨encoding, behind, place, inside, ends, text⟩ | other
      · have short : behind.length < n := by
          rw [← length, text]
          simp
          omega
        obtain ⟨last, once⟩ := replaceCharset_named place inside ends
        have later := (replaceCharset_of_head? ends none (some last)).2
        have plain : ';' ∉ outputEncoding := by decide
        obtain ⟨final, twice⟩ := replaceCharset_named place plain later
        rw [text, once, twice, (replaceCharset_of_head? later (some final) (some last)).1,
          ih behind.length short (some last) behind rfl]
      · have kept := replaceCharset_cons previous c rest
        rw [other] at kept
        have again : (isOpenPlace previous &&
            Text.startsWith "charset=" (c :: replaceCharset (some c) 0 rest)) = false := by
          refine Bool.eq_false_iff.mpr fun named => ?_
          obtain ⟨place, starts⟩ := Bool.and_eq_true_iff.mp named
          have start : ['c', 'h', 'a', 'r', 's', 'e', 't', '='] <+:
            c :: replaceCharset (some c) 0 rest := List.isPrefixOf_iff_prefix.mp starts
          obtain ⟨rfl, word⟩ := List.cons_prefix_cons.mp start
          have before := prefix_of_prefix_replaceCharset (by decide) (by decide) word
          have here : Text.startsWith "charset=" ('c' :: rest) = true :=
            List.isPrefixOf_iff_prefix.mpr (List.cons_prefix_cons.mpr ⟨rfl, before⟩)
          rw [place, here] at other
          cases other
        rw [kept]
        simp only [Bool.false_eq_true, if_false]
        rw [replaceCharset_cons, again, ih rest.length (by simp at length; omega) (some c) rest rfl]
        rfl

/-! ## Attributes where white space counts -/

/-- The attributes of an element that is written where white space counts. -/
def verbatimOrder (name : Text) (attributes : Attributes) : Attributes :=
  sortAttributes (withOutputEncoding name attributes)

theorem keys_withOutputEncoding (name : Text) (attributes : Attributes) :
    Fields.keys (withOutputEncoding name attributes) = Fields.keys attributes := by
  unfold withOutputEncoding
  split
  · split
    · next found => exact Fields.keys_put_of_mem (Fields.mem_keys_of_lookup found)
    · next found _ =>
      split
      · exact Fields.keys_put_of_mem (Fields.mem_keys_of_lookup found)
      · rfl
    · rfl
  · rfl

theorem SoundAttributes.withOutputEncoding {attributes : Attributes}
    (sound : SoundAttributes attributes) (name : Text) :
    SoundAttributes (withOutputEncoding name attributes) := by
  refine ⟨by rw [keys_withOutputEncoding]; exact sound.distinct, fun a member => ?_⟩
  have key : a.1 ∈ Fields.keys (Markup.withOutputEncoding name attributes) :=
    List.mem_map_of_mem member
  rw [keys_withOutputEncoding] at key
  obtain ⟨b, inside, same⟩ := List.mem_map.mp key
  rw [← same]
  exact sound.named b inside

/-- An encoding that is the one of the output is left alone, wherever its attribute stands. -/
theorem withOutputEncoding_of_lookup {name : Text} {attributes others : Attributes}
    (same : ∀ key, attributeOf others key = attributeOf (withOutputEncoding name attributes) key) :
    withOutputEncoding name others = others := by
  have put (key value other : Text) : attributeOf (Fields.put key value attributes) other =
      if other = key then some value else attributeOf attributes other :=
    Fields.lookup_put key other value attributes
  have keys : "content".toList ≠ "charset" ∧ "http-equiv".toList ≠ "content" := by decide
  unfold withOutputEncoding at same ⊢
  -- the names matter only as far as they differ
  generalize "charset".toList = charset, "content".toList = content, "http-equiv".toList = kind,
    "meta".toList = known at same keys ⊢
  by_cases isMeta : name = known
  · simp only [if_pos isMeta] at same ⊢
    cases one : attributeOf attributes charset with
    | some encoding =>
      simp only [one] at same
      have here := same charset
      rw [put, if_pos rfl] at here
      simp only [here]
      exact Fields.put_of_lookup here
    | none =>
      cases two : attributeOf attributes content with
      | none =>
        simp only [one, two] at same
        simp only [same, one, two]
      | some t =>
        cases three : attributeOf attributes kind with
        | none =>
          simp only [one, two, three] at same
          simp only [same, one, two, three]
        | some k =>
          simp only [one, two, three] at same
          by_cases typed : Text.lower k = "content-type"
          · simp only [if_pos typed] at same
            have here := same content
            rw [put, if_pos rfl] at here
            have first := same charset
            rw [put, if_neg (Ne.symm keys.1), one] at first
            have last := same kind
            rw [put, if_neg keys.2, three] at last
            simp only [first, here, last, if_pos typed, replaceCharset_replaceCharset]
            exact Fields.put_of_lookup here
          · simp only [if_neg typed] at same
            simp only [same, one, two, three, if_neg typed]
  · rw [if_neg isMeta]

theorem SoundAttributes.verbatimOrder {attributes : Attributes} (sound : SoundAttributes attributes)
    (name : Text) : SoundAttributes (verbatimOrder name attributes) :=
  (sound.withOutputEncoding name).of_perm (sortAttributes_perm _).symm

/-- Attributes that have been put in order for output stay as they are. -/
theorem verbatimOrder_verbatimOrder {attributes : Attributes} (sound : SoundAttributes attributes)
    (name : Text) : verbatimOrder name (verbatimOrder name attributes) = verbatimOrder name attributes := by
  have encoded : withOutputEncoding name (verbatimOrder name attributes) =
      verbatimOrder name attributes :=
    withOutputEncoding_of_lookup fun key =>
      Fields.lookup_perm (sortAttributes_perm _) (sound.verbatimOrder name).distinct key
  rw [verbatimOrder, encoded]
  exact sortAttributes_of_ordered (ordered_sortAttributes _)

end Markup

end StaticSite
