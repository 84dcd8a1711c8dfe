import StaticSite.Proofs.Markup.Attributes
import StaticSite.Proofs.Markup.Constructs
import StaticSite.Proofs.Markup.Raw

/-! # What tokens are made of

The parts of tokens hold nothing that would have ended them: names are names in lower case, and the
content of a comment or a section has no ending of its own. The start tag of an element with raw
content is followed by that content and the end tag, unless the text ends without one.
-/

namespace StaticSite.Markup

/-! ## Endings -/

/-- Whether an ending starts nowhere in a text. -/
def Quiet (ending? : Text → Option Nat) (t : Text) : Prop := ∀ s, s ≠ [] → s <:+ t → ending? s = none

theorem upTo?_eq_some {ending? : Text → Option Nat} {t body : Text} {n : Nat}
    (found : upTo? ending? t = some (body, n)) :
    ∃ rest, t = body ++ rest ∧ ∀ s, s ≠ [] → s <:+ body → ending? (s ++ rest) = none := by
  induction t generalizing body n with
  | nil => cases found
  | cons c more ih =>
    rw [upTo?] at found
    cases here : ending? (c :: more) with
    | some k =>
      rw [here] at found
      obtain ⟨rfl, rfl⟩ : [] = body ∧ k = n := by simpa using found
      exact ⟨c :: more, rfl, fun s some within => absurd (List.suffix_nil.mp within) some⟩
    | none =>
      rw [here] at found
      obtain ⟨⟨inner, k⟩, later, same⟩ := Option.map_eq_some_iff.mp found
      obtain ⟨rfl, rfl⟩ : c :: inner = body ∧ k + 1 = n := by simpa using same
      obtain ⟨rest, rfl, quiet⟩ := ih later
      refine ⟨rest, rfl, fun s some within => ?_⟩
      rcases List.suffix_cons_iff.mp within with rfl | inside
      · exact here
      · exact quiet s some inside

/-- Whether an ending is one whatever stands behind it. -/
def Keeps (ending? : Text → Option Nat) : Prop := ∀ s y, ending? (s ++ y) = none → ending? s = none

/-- What is read up to an ending holds no ending. -/
theorem quiet_of_upTo? {ending? : Text → Option Nat} (keeps : Keeps ending?) {t body : Text} {n : Nat}
    (found : upTo? ending? t = some (body, n)) : Quiet ending? body := by
  obtain ⟨rest, -, quiet⟩ := upTo?_eq_some found
  exact fun s some within => keeps s rest (quiet s some within)

theorem upTo?_of_quiet {ending? : Text → Option Nat} {t : Text} (quiet : Quiet ending? t) :
    upTo? ending? t = none := by
  induction t with
  | nil => rfl
  | cons c rest ih =>
    have here := quiet (c :: rest) (by simp) (List.suffix_refl _)
    have later := ih fun s some within => quiet s some (within.trans (List.suffix_cons c rest))
    rw [upTo?, here, later]
    rfl

theorem not_mem_of_quiet_tagEnd? {t : Text} (quiet : Quiet tagEnd? t) : '>' ∉ t := by
  intro member
  obtain ⟨before, behind, rfl⟩ := List.append_of_mem member
  have here := quiet ('>' :: behind) (by simp) (List.suffix_append before _)
  cases here

theorem tagEnd?_keeps : Keeps tagEnd? := by
  intro s y before
  cases s with
  | nil => rfl
  | cons c rest =>
    rw [List.cons_append, tagEnd?_cons] at before
    rwa [tagEnd?_cons]

theorem looseEnd?_of_not_mem {t : Text} (inside : '>' ∉ t) : looseEnd? t = none := by
  induction t with
  | nil => rfl
  | cons c rest ih =>
    simp only [List.mem_cons, not_or] at inside
    rw [looseEnd?_cons, ih inside.2, if_neg (Ne.symm inside.1)]
    simp

theorem commentContent_of_not_mem {t : Text} (inside : '>' ∉ t) : CommentContent t := by
  intro s some within
  match s, some with
  | [c], _ => simp [commentEnd?]
  | c :: d :: rest, _ =>
    have later : '>' ∉ rest := fun member => inside (within.mem (by simp [member]))
    rw [commentEnd?_cons, looseEnd?_of_not_mem later]
    simp

theorem looseEnd?_keeps : Keeps looseEnd? := by
  intro s y before
  rw [looseEnd?_append] at before
  by_cases blanks : s.all isBlank = true
  · have whole := looseEnd?_append s []
    rw [List.append_nil, if_pos blanks] at whole
    rw [whole]
    rfl
  · rwa [if_neg blanks] at before

theorem bracketEnd?_keeps : Keeps bracketEnd? := by
  intro s y before
  cases s with
  | nil => rfl
  | cons c rest =>
    rw [List.cons_append, bracketEnd?_cons] at before
    rw [bracketEnd?_cons]
    by_cases bracket : c = ']'
    · rw [if_pos bracket] at before ⊢
      rw [looseEnd?_keeps rest y (Option.map_eq_none_iff.mp before)]
      rfl
    · rw [if_neg bracket]

theorem bracketsEnd?_keeps : Keeps bracketsEnd? := by
  intro s y before
  cases s with
  | nil => rfl
  | cons c rest =>
    rw [List.cons_append, bracketsEnd?_cons] at before
    rw [bracketsEnd?_cons]
    by_cases bracket : c = ']'
    · rw [if_pos bracket] at before ⊢
      have inner := Option.map_eq_none_iff.mp before
      have own : bracketEnd? (rest.dropWhile isBlank) = none := by
        rw [List.dropWhile_append] at inner
        split at inner
        · next empty =>
          rw [List.isEmpty_iff.mp empty]
          rfl
        · exact bracketEnd?_keeps _ y inner
      rw [own]
      rfl
    · rw [if_neg bracket]

/-- Two brackets end a section where one of them ends a conditional one. -/
theorem dataContent_of_quiet {t : Text} (quiet : Quiet bracketEnd? t) : DataContent t := by
  intro s some within
  obtain ⟨c, rest, rfl⟩ := List.exists_cons_of_ne_nil some
  rw [bracketsEnd?_cons]
  have inner : bracketEnd? (rest.dropWhile isBlank) = none := by
    by_cases empty : rest.dropWhile isBlank = []
    · rw [empty]
      rfl
    · exact quiet _ empty (((List.dropWhile_suffix _).trans (List.suffix_cons c rest)).trans within)
  rw [inner]
  simp

theorem endsTag_append {name : Text} (some : name ≠ []) {t : Text} (ends : endsTag name t)
    (y : Text) : endsTag name (t ++ y) := by
  obtain ⟨same, closes⟩ := ends
  have visible : t.dropWhile isBlank ≠ [] := by
    intro none
    rw [none] at same
    exact some (by simpa using same.symm)
  have long : name.length ≤ (t.dropWhile isBlank).length := by
    have count := congrArg List.length same
    rw [List.length_map, List.length_take] at count
    omega
  have dropped : (t ++ y).dropWhile isBlank = t.dropWhile isBlank ++ y := by
    rw [List.dropWhile_append, if_neg (by simpa using visible)]
  rw [endsTag, dropped, List.take_append_of_le_length long, List.drop_append_of_le_length long]
  refine ⟨same, Option.isSome_iff_ne_none.mpr fun none => ?_⟩
  rw [looseEnd?_keeps _ y none] at closes
  cases closes

theorem rawEnd?_keeps {name : Text} (some : name ≠ []) : Keeps (rawEnd? name) := by
  intro s y before
  match s with
  | [] => rfl
  | [c] => simp [rawEnd?]
  | c :: d :: rest =>
    have off : ¬(rawEnd? name (c :: d :: (rest ++ y))).isSome := by
      rw [← List.cons_append, ← List.cons_append, before]
      simp
    rw [rawEnd?_cons_cons] at off
    have own : ¬(rawEnd? name (c :: d :: rest)).isSome := by
      rw [rawEnd?_cons_cons]
      exact fun ends => off ⟨ends.1, ends.2.1, endsTag_append some ends.2.2 y⟩
    simpa using own

/-! ## Names -/

/-- A name that an element has been read with. -/
structure SoundName (name : Text) : Prop extends TagName name where
  lower : Text.lower name = name

theorem isNameChar_of_isWord {c : Char} (word : Text.IsWord c) : isNameChar c = true := by
  simp only [isNameChar, Bool.not_eq_true', Bool.or_eq_false_iff, beq_eq_false_iff_ne]
  refine ⟨⟨⟨⟨⟨⟨⟨?_, ?_⟩, ?_⟩, ?_⟩, ?_⟩, ?_⟩, ?_⟩, ?_⟩ <;> exact word.ne (by decide)

theorem isAttributeChar_of_isWord {c : Char} (word : Text.IsWord c) : isAttributeChar c = true := by
  simp only [isAttributeChar, Bool.not_eq_true', Bool.or_eq_false_iff, beq_eq_false_iff_ne]
  exact ⟨⟨⟨word.2, word.ne (by decide)⟩, word.ne (by decide)⟩, word.ne (by decide)⟩

theorem toNat_lt_of_isLetter {c : Char} (letter : isLetter c = true) : c.toNat < 128 := by
  simp only [isLetter, Bool.or_eq_true, Bool.and_eq_true, decide_eq_true_eq, Char.le_def,
    UInt32.le_iff_toNat_le] at letter
  have small : 'z'.val.toNat = 122 ∧ 'Z'.val.toNat = 90 := by decide
  change c.val.toNat < 128
  omega

theorem isLetter_lowerChar {c : Char} (letter : isLetter c = true) :
    isLetter (Text.lowerChar c) = true := by
  have all : ∀ n < 128, isLetter (Char.ofNat n) = true →
      isLetter (Text.lowerChar (Char.ofNat n)) = true := by decide
  have here := all c.toNat (toNat_lt_of_isLetter letter)
  rw [Char.ofNat_toNat] at here
  exact here letter

/-- The name of a tag in lower case is one. -/
theorem TagName.lower {name : Text} (named : TagName name) : SoundName (Text.lower name) := by
  obtain ⟨c, rest, rfl, letter⟩ := named.cons
  have start : Text.lower (c :: rest) = Text.lowerChar c :: Text.lowerAfter [c] rest := by
    rw [Text.lower, Text.lowerAfter, Text.lowerBetween_ascii (toNat_lt_of_isLetter letter)]
    rfl
  refine ⟨⟨⟨Text.lowerChar c, by rw [start]; rfl, isLetter_lowerChar letter⟩, fun d member => ?_⟩,
    Text.lower_lower _⟩
  rcases Text.mem_lower member with inside | word
  · exact named.chars d inside
  · exact isNameChar_of_isWord word

/-- The name of an attribute in lower case is one. -/
theorem named_lower {name : Text} (named : TagAttribute.Named name) :
    TagAttribute.Named (Text.lower name) ∧ Text.lower (Text.lower name) = Text.lower name := by
  obtain ⟨c, rest, rfl, first, chars⟩ := named.cons
  obtain ⟨d, more, split, kept, others⟩ := Text.lower_cons c rest
  refine ⟨?_, Text.lower_lower _⟩
  rw [split]
  refine ⟨⟨d, rfl, ?_⟩, fun e member => ?_⟩
  · rcases kept with rfl | word
    · exact first
    · have char := isAttributeChar_of_isWord word
      simp only [isAttributeChar, Bool.not_eq_true', Bool.or_eq_false_iff, beq_eq_false_iff_ne] at char
      exact ⟨char.1.1.1, char.1.1.2, char.2⟩
  · rcases others e member with inside | word
    · exact chars e inside
    · exact isAttributeChar_of_isWord word

/-- An attribute is read with a name in lower case. -/
theorem named_of_attribute? {previous : Char} {t : Text} {a : Text × Text} {n : Nat}
    (found : attribute? previous t = some (a, n)) :
    TagAttribute.Named a.1 ∧ Text.lower a.1 = a.1 := by
  cases t with
  | nil => cases found
  | cons c rest =>
    rw [attribute?] at found
    obtain ⟨start, same⟩ := Option.ite_none_left_eq_some.mp found
    obtain ⟨rfl, -⟩ := Prod.mk.inj (Option.some.inj same)
    refine named_lower ⟨⟨c, rfl, ?_⟩, fun d member => List.mem_takeWhile_imp member⟩
    simp only [Bool.not_eq_true, Bool.or_eq_false_iff, beq_eq_false_iff_ne] at start
    exact ⟨start.1.1.2, start.1.2, start.2⟩

theorem named_of_attributesFrom {skip : Nat} {previous : Char} {t : Text} {a : Text × Text}
    (member : a ∈ (attributesFrom skip previous t).1) :
    TagAttribute.Named a.1 ∧ Text.lower a.1 = a.1 := by
  induction t generalizing skip previous with
  | nil => cases member
  | cons c rest ih =>
    rw [attributesFrom] at member
    split at member
    · exact ih member
    · split at member
      · next found =>
        rcases List.mem_cons.mp member with rfl | later
        · exact named_of_attribute? found
        · exact ih later
      · cases member

/-- Attributes that are read are sound. -/
theorem soundAttributes_putAll {found : Attributes}
    (named : ∀ a ∈ found, TagAttribute.Named a.1 ∧ Text.lower a.1 = a.1) :
    SoundAttributes (Fields.putAll [] found) := by
  refine ⟨Fields.nodup_keys_putAll (by simp [Fields.keys]) found, fun a member => ?_⟩
  have key : a.1 ∈ Fields.keys (Fields.putAll [] found) := List.mem_map_of_mem member
  rcases Fields.mem_keys_putAll key with none | inside
  · cases none
  · obtain ⟨b, here, same⟩ := List.mem_map.mp inside
    exact same ▸ named b here

/-! ## Tokens -/

/-- Whether the parts of a token hold nothing that would have ended them. -/
def Token.Sound : Token → Prop
  | .start name attributes _ => SoundName name ∧ SoundAttributes attributes
  | .comment t => CommentContent t
  | .doctype t | .instruction t => '>' ∉ t
  | .marked t => DataContent t
  | .text _ | .finish _ | .rejected _ => True

/-- Whether a token opens an element with raw content. -/
def Token.opensRaw : Token → Bool
  | .start name _ closed => !closed && rawElements.elem name
  | _ => false

/-- Tokens that are sound, with what is raw in one piece. -/
inductive Arranged : List Token → Prop
  | nil : Arranged []
  | cons {token : Token} {rest : List Token} (sound : token.Sound) (plain : token.opensRaw = false)
      (others : Arranged rest) : Arranged (token :: rest)
  | raw {name content : Text} {attributes : Attributes} {rest : List Token}
      (member : name ∈ rawElements) (named : SoundName name) (sound : SoundAttributes attributes)
      (quiet : RawContent name content) (others : Arranged rest) :
      Arranged (.start name attributes false :: (rawTokens name content ++ rest))
  /-- Raw content without an end tag is lost. -/
  | lost {name : Text} {attributes : Attributes} (member : name ∈ rawElements) :
      Arranged [.start name attributes false]

/-- Tokens that may stand in front of others. -/
def Grouped (ts : List Token) : Prop := ∀ rest, Arranged rest → Arranged (ts ++ rest)

theorem grouped_nil : Grouped [] := fun _ others => others

theorem grouped_token {t : Token} (sound : t.Sound) (plain : t.opensRaw = false) :
    Grouped [t] := fun _ others => .cons sound plain others

/-- What a reader takes from a text: tokens that may stand in front of others, or what is lost with
the rest of the text. -/
def Takes (t : Text) (ts : List Token) (length : Nat) : Prop :=
  Grouped ts ∨ Arranged ts ∧ t.length ≤ length

theorem isNameChar_of_isLetter {c : Char} (letter : isLetter c = true) : isNameChar c = true := by
  have other (d : Char) (sign : isLetter d = false) : c ≠ d := by
    rintro rfl
    rw [letter] at sign
    cases sign
  simp only [isNameChar, Bool.not_eq_true', Bool.or_eq_false_iff, beq_eq_false_iff_ne]
  refine ⟨⟨⟨⟨⟨⟨⟨?_, ?_⟩, ?_⟩, ?_⟩, ?_⟩, ?_⟩, ?_⟩, ?_⟩ <;> exact other _ (by decide)

/-- Raw content is taken with its end tag or lost with the rest of the text. -/
theorem rawContent_cases {name : Text} (raw : name ∈ rawElements) (t : Text) :
    (∃ content, RawContent name content ∧ (rawContent name t).1 = rawTokens name content) ∨
      rawContent name t = ([], t.length) := by
  obtain ⟨word, some, -⟩ := name_of_mem_rawElements raw
  rw [rawContent]
  cases found : upTo? (rawEnd? name) t with
  | none => exact .inr rfl
  | some read =>
    have quiet := upTo?_of_quiet (quiet_of_upTo? (rawEnd?_keeps some) found)
    exact .inl ⟨read.1, (rawContent_iff word some read.1).mpr quiet, rfl⟩

theorem takes_startTag? {b c : Char} (letter : isLetter c = true) {rest : Text} {ts : List Token}
    {length : Nat} (read : startTag? (b :: c :: rest) = some (ts, length)) :
    Takes (b :: c :: rest) ts length := by
  have named : TagName ((c :: rest).takeWhile isNameChar) := by
    have char := isNameChar_of_isLetter letter
    rw [List.takeWhile_cons_of_pos char]
    exact ⟨⟨c, rfl, letter⟩, fun d member => by
      rw [← List.takeWhile_cons_of_pos char] at member
      exact List.mem_takeWhile_imp member⟩
  unfold startTag? at read
  dsimp only [List.drop_succ_cons, List.drop_zero] at read
  have sound (skip : Nat) (previous : Char) (t : Text) :=
    soundAttributes_putAll fun a => @named_of_attributesFrom skip previous t a
  split at read
  · cases read
  · split at read
    · next raw =>
      obtain ⟨rfl, rfl⟩ := Prod.mk.inj (Option.some.inj read)
      have member := List.elem_iff.mp raw
      rcases rawContent_cases member _ with ⟨content, quiet, tokens⟩ | lost
      · refine .inl fun rest others => ?_
        rw [tokens]
        exact .raw member named.lower (sound _ _ _) quiet others
      · refine .inr ⟨?_, ?_⟩
        · rw [lost]
          exact .lost member
        · rw [lost]
          have behind := congrArg List.length ‹_ = '>' :: _›
          simp only [List.length_drop, List.length_cons] at behind ⊢
          omega
    · next plain =>
      obtain ⟨rfl, -⟩ := Prod.mk.inj (Option.some.inj read)
      exact .inl (grouped_token (t := .start _ _ false) ⟨named.lower, sound _ _ _⟩
        (by simpa [Token.opensRaw] using plain))
  · obtain ⟨rfl, -⟩ := Prod.mk.inj (Option.some.inj read)
    exact .inl (grouped_token (t := .start _ _ true) ⟨named.lower, sound _ _ _⟩ rfl)
  · obtain ⟨-, same⟩ := Option.ite_none_left_eq_some.mp read
    obtain ⟨rfl, -⟩ := Prod.mk.inj (Option.some.inj same)
    exact .inl (grouped_token trivial rfl)

theorem grouped_comment {t : Text} (inside : '>' ∉ t) : Grouped [.comment t] :=
  grouped_token (commentContent_of_not_mem inside) rfl

theorem grouped_looseComment? {t : Text} {ts : List Token} {length : Nat}
    (read : looseComment? t = some (ts, length)) : Grouped ts := by
  obtain ⟨⟨content, n⟩, found, same⟩ := Option.map_eq_some_iff.mp read
  obtain ⟨rfl, -⟩ := Prod.mk.inj same
  exact grouped_comment (not_mem_of_quiet_tagEnd? (quiet_of_upTo? tagEnd?_keeps found))

theorem grouped_endTag? {t : Text} {ts : List Token} {length : Nat}
    (read : endTag? t = some (ts, length)) : Grouped ts := by
  have finish (name : Text) : Grouped [.finish name] := grouped_token trivial rfl
  unfold endTag? at read
  dsimp only at read
  split at read
  · cases read
  · split at read
    · obtain ⟨rfl, -⟩ := Prod.mk.inj (Option.some.inj read)
      exact finish _
    · split at read
      · obtain ⟨rfl, -⟩ := Prod.mk.inj (Option.some.inj read)
        exact grouped_nil
      · split at read
        · obtain ⟨found, -, same⟩ := Option.map_eq_some_iff.mp read
          obtain ⟨rfl, -⟩ := Prod.mk.inj same
          exact finish _
        · exact grouped_looseComment? read
      · cases read

theorem grouped_markedSection? {t : Text} {ts : List Token} {length : Nat}
    (read : markedSection? t = some (ts, length)) : Grouped ts := by
  unfold markedSection? at read
  dsimp only at read
  split at read
  · cases read
  · split at read
    · obtain ⟨rfl, -⟩ := Prod.mk.inj (Option.some.inj read)
      exact grouped_token trivial rfl
    · split at read
      · cases read
      · split at read
        · obtain ⟨⟨content, n⟩, found, same⟩ := Option.map_eq_some_iff.mp read
          obtain ⟨rfl, -⟩ := Prod.mk.inj same
          exact grouped_token (t := .marked content) (quiet_of_upTo? bracketsEnd?_keeps found) rfl
        · split at read
          · obtain ⟨⟨content, n⟩, found, same⟩ := Option.map_eq_some_iff.mp read
            obtain ⟨rfl, -⟩ := Prod.mk.inj same
            exact grouped_token (t := .marked content)
              (dataContent_of_quiet (quiet_of_upTo? bracketEnd?_keeps found)) rfl
          · obtain ⟨rfl, -⟩ := Prod.mk.inj (Option.some.inj read)
            exact grouped_token trivial rfl

theorem grouped_declaration? {t : Text} {ts : List Token} {length : Nat}
    (read : declaration? t = some (ts, length)) : Grouped ts := by
  unfold declaration? at read
  split at read
  · obtain ⟨⟨content, n⟩, found, same⟩ := Option.map_eq_some_iff.mp read
    obtain ⟨rfl, -⟩ := Prod.mk.inj same
    have keeps : Keeps commentEnd? := fun _ _ => commentEnd?_eq_none_of_append
    exact grouped_token (t := .comment content) (quiet_of_upTo? keeps found) rfl
  · split at read
    · exact grouped_markedSection? read
    · split at read
      · obtain ⟨⟨content, n⟩, found, same⟩ := Option.map_eq_some_iff.mp read
        obtain ⟨rfl, -⟩ := Prod.mk.inj same
        have inside := not_mem_of_quiet_tagEnd? (quiet_of_upTo? tagEnd?_keeps found)
        exact grouped_token (t := .doctype (content.drop 1))
          (fun member => inside (List.mem_of_mem_drop member)) rfl
      · exact grouped_looseComment? read

theorem takes_readTag (late : Bool) (t : Text) :
    Takes t (readTag late t).tokens (readTag late t).length := by
  have opens : Grouped [.text ['<']] := grouped_token trivial rfl
  unfold readTag
  dsimp only
  split
  · next ts length complete =>
    split at complete
    · exact .inl (grouped_endTag? complete)
    · obtain ⟨⟨content, n⟩, found, same⟩ := Option.map_eq_some_iff.mp complete
      obtain ⟨rfl, -⟩ := Prod.mk.inj same
      have inside := not_mem_of_quiet_tagEnd? (quiet_of_upTo? tagEnd?_keeps found)
      exact .inl (grouped_token (t := .instruction content) inside rfl)
    · exact .inl (grouped_declaration? complete)
    · split at complete
      · next letter => exact takes_startTag? letter complete
      · obtain ⟨rfl, -⟩ := Prod.mk.inj (Option.some.inj complete)
        exact .inl opens
    · obtain ⟨rfl, -⟩ := Prod.mk.inj (Option.some.inj complete)
      exact .inl opens
  · exact .inl (grouped_token trivial rfl)

theorem grouped_readNumber (late : Bool) (t : Text) : Grouped (readNumber late t).tokens := by
  have text (t : Text) : Grouped [.text t] := grouped_token trivial rfl
  unfold readNumber
  dsimp only
  split
  · next step found =>
    -- in either base the digits count only with a character behind them
    split at found
    · split at found
      · cases found
      · obtain ⟨-, same⟩ := Option.ite_none_left_eq_some.mp found
        obtain rfl := Option.some.inj same
        exact text _
    · split at found
      · split at found
        · cases found
        · obtain ⟨-, same⟩ := Option.ite_none_left_eq_some.mp found
          obtain rfl := Option.some.inj same
          exact text _
      · cases found
  · split
    · exact text _
    · exact text _

theorem grouped_readName (late : Bool) (t : Text) : Grouped (readName late t).tokens := by
  have text (t : Text) : Grouped [.text t] := grouped_token trivial rfl
  unfold readName
  dsimp only
  split
  · exact text _
  · split
    · exact text _
    · split
      · exact text _
      · exact text _

theorem takes_readAt (late : Bool) (c : Char) (rest : Text) :
    Takes (c :: rest) (readAt late c rest).tokens (readAt late c rest).length := by
  have text (t : Text) : Grouped [.text t] := grouped_token trivial rfl
  unfold readAt
  dsimp only
  split
  · exact takes_readTag late (c :: rest)
  · split
    · split
      · exact .inl (grouped_readNumber late _)
      · split
        · exact .inl (grouped_readName late _)
        · exact .inl (text _)
      · exact .inl (text _)
    · exact .inl (text _)

theorem tokensFrom_of_le (late : Bool) {skip : Nat} {t : Text} (past : t.length ≤ skip) :
    tokensFrom late skip t = [] := by
  induction t generalizing skip with
  | nil => rfl
  | cons c rest ih =>
    rw [List.length_cons] at past
    rw [tokensFrom, if_pos (by omega), ih (by omega)]

/-- The tokens of a text are arranged. -/
theorem arranged_tokensFrom (late : Bool) (skip : Nat) (t : Text) :
    Arranged (tokensFrom late skip t) := by
  induction t generalizing late skip with
  | nil => exact .nil
  | cons c rest ih =>
    rw [tokensFrom]
    split
    · exact ih late (skip - 1)
    · rcases takes_readAt late c rest with grouped | ⟨lost, past⟩
      · exact grouped _ (ih _ _)
      · rw [List.length_cons] at past
        have past : rest.length ≤ (readAt late c rest).length - 1 := by omega
        have none := tokensFrom_of_le (readAt late c rest).late past
        dsimp only
        rwa [none, List.append_nil]

end StaticSite.Markup
