import StaticSite.Proofs.Markup.Reads

/-! # Reading what is no element

Comments, document types, instructions and sections of character data are read whole when their
content holds no ending of their own.
-/

namespace StaticSite.Markup

/-- An ending starts nowhere in a text that it is not found in. -/
theorem ending?_of_upTo? {ending? : Text → Option Nat} {t : Text} (quiet : upTo? ending? t = none)
    {s : Text} (some : s ≠ []) (inside : s <:+ t) : ending? s = none := by
  induction t with
  | nil => exact absurd (List.suffix_nil.mp inside) some
  | cons c rest ih =>
    rw [upTo?] at quiet
    cases here : ending? (c :: rest) with
    | some n =>
      rw [here] at quiet
      cases quiet
    | none =>
      rw [here] at quiet
      rcases List.suffix_cons_iff.mp inside with rfl | later
      · exact here
      · exact ih (Option.map_eq_none_iff.mp quiet) later

/-- A text is read up to an ending when no ending starts in it. -/
theorem upTo?_append {ending? : Text → Option Nat} {x y : Text} {n : Nat} (follows : y ≠ [])
    (quiet : ∀ s, s ≠ [] → s <:+ x → ending? (s ++ y) = none) (ends : ending? y = some n) :
    upTo? ending? (x ++ y) = some (x, x.length + n) := by
  induction x with
  | nil =>
    obtain ⟨c, rest, rfl⟩ := List.exists_cons_of_ne_nil follows
    rw [List.nil_append, upTo?, ends]
    simp
  | cons c rest ih =>
    have later := ih fun s some inside => quiet s some (inside.trans (List.suffix_cons c rest))
    have here := quiet (c :: rest) (by simp) (List.suffix_refl _)
    rw [List.cons_append] at here ⊢
    rw [upTo?, here, later]
    simp
    omega

theorem upTo?_tagEnd? {x : Text} (inside : '>' ∉ x) (rest : Text) :
    upTo? tagEnd? (x ++ '>' :: rest) = some (x, x.length + 1) := by
  refine upTo?_append (by simp) (fun s some within => ?_) rfl
  obtain ⟨c, more, rfl⟩ := List.exists_cons_of_ne_nil some
  have other : c ≠ '>' := by
    rintro rfl
    exact inside (within.mem List.mem_cons_self)
  simp [tagEnd?, other]

theorem tagEnd?_cons (c : Char) (rest : Text) :
    tagEnd? (c :: rest) = if c = '>' then some 1 else none := by
  by_cases ends : c = '>' <;> simp [tagEnd?, ends]

theorem looseEnd?_cons (c : Char) (rest : Text) : looseEnd? (c :: rest) =
    if isBlank c then (looseEnd? rest).map (· + 1) else if c = '>' then some 1 else none := by
  by_cases blank : isBlank c = true
  · rw [if_pos blank, looseEnd?, looseEnd?]
    simp only [List.takeWhile_cons_of_pos blank, List.length_cons, List.drop_succ_cons,
      Option.map_map]
    rfl
  · rw [if_neg blank, looseEnd?, ← tagEnd?_cons c rest]
    simp [List.takeWhile_cons_of_neg blank]

/-- Blanks before the end of a tag are read through. -/
theorem looseEnd?_append (x y : Text) :
    looseEnd? (x ++ y) = if x.all isBlank then (looseEnd? y).map (· + x.length) else looseEnd? x := by
  induction x with
  | nil => simp
  | cons c rest ih =>
    rw [List.cons_append, looseEnd?_cons, looseEnd?_cons, ih, List.all_cons]
    by_cases blank : isBlank c = true
    · by_cases blanks : rest.all isBlank = true
      · simp only [blank, blanks, Bool.and_self, if_true, Option.map_map, List.length_cons]
        exact congrArg (Option.map · (looseEnd? y)) (funext fun n => Nat.add_assoc n _ _)
      · simp [blank, blanks]
    · simp [blank]

/-- What ends nothing ends nothing in front of a text that does not end it either. -/
theorem looseEnd?_append_eq_none {x y : Text} (before : looseEnd? x = none)
    (after : looseEnd? y = none) : looseEnd? (x ++ y) = none := by
  rw [looseEnd?_append, before, after]
  simp

/-! ## Comments -/

theorem commentEnd?_cons (c d : Char) (rest : Text) : commentEnd? (c :: d :: rest) =
    if c = '-' ∧ d = '-' then (looseEnd? rest).map (· + 2) else none := by
  by_cases dashes : c = '-' ∧ d = '-'
  · obtain ⟨rfl, rfl⟩ := dashes
    rfl
  · rw [if_neg dashes, commentEnd?]
    rintro more ⟨⟩
    exact dashes ⟨rfl, rfl⟩

/-- No ending of a comment starts in front of a text that ends none. -/
theorem commentEnd?_append {s : Text} (follows : s ≠ []) (quiet : commentEnd? s = none) {y : Text}
    (after : looseEnd? y = none) (later : looseEnd? y.tail = none) :
    commentEnd? (s ++ y) = none := by
  match s, follows with
  | [c], _ =>
    cases y with
    | nil => exact quiet
    | cons d rest =>
      rw [List.singleton_append, commentEnd?_cons, show looseEnd? rest = none from later]
      simp
  | c :: d :: more, _ =>
    rw [commentEnd?_cons] at quiet
    rw [List.cons_append, List.cons_append, commentEnd?_cons]
    by_cases dashes : c = '-' ∧ d = '-'
    · rw [if_pos dashes] at quiet ⊢
      rw [looseEnd?_append_eq_none (Option.map_eq_none_iff.mp quiet) after]
      rfl
    · rw [if_neg dashes]

/-- An ending of a comment is one whatever stands behind it. -/
theorem commentEnd?_eq_none_of_append {s y : Text} (quiet : commentEnd? (s ++ y) = none) :
    commentEnd? s = none := by
  match s with
  | [] => rfl
  | [c] => simp [commentEnd?]
  | c :: d :: more =>
    rw [List.cons_append, List.cons_append, commentEnd?_cons, looseEnd?_append] at quiet
    rw [commentEnd?_cons]
    by_cases dashes : c = '-' ∧ d = '-'
    · rw [if_pos dashes] at quiet ⊢
      by_cases blanks : more.all isBlank = true
      · have whole := looseEnd?_append more []
        rw [List.append_nil, if_pos blanks] at whole
        rw [whole]
        rfl
      · rwa [if_neg blanks] at quiet
    · rw [if_neg dashes]

/-- Whether the content of a comment holds no ending. -/
def CommentContent (t : Text) : Prop := ∀ s, s ≠ [] → s <:+ t → commentEnd? s = none

namespace CommentContent

theorem of_infix {t x : Text} (content : CommentContent t) (inside : x <:+: t) :
    CommentContent x := by
  obtain ⟨before, behind, rfl⟩ := inside
  intro s some within
  refine commentEnd?_eq_none_of_append (content (s ++ behind) (by simp [some]) ?_)
  obtain ⟨front, rfl⟩ := within
  exact ⟨before ++ front, by simp⟩

/-- Spaces around the content of a comment end nothing. -/
theorem spaced {t : Text} (content : CommentContent t) : CommentContent (' ' :: t ++ [' ']) := by
  intro s some within
  rw [List.cons_append] at within
  rcases List.suffix_cons_iff.mp within with rfl | inside
  · cases t <;> simp [commentEnd?]
  · rcases List.suffix_concat_iff.mp inside with rfl | ⟨front, rfl, inner⟩
    · exact absurd rfl some
    · by_cases none : front = []
      · subst none
        rfl
      · exact commentEnd?_append none (content front none inner) rfl rfl

/-- A comment is read up to its end. -/
theorem upTo?_eq {t : Text} (content : CommentContent t) (rest : Text) :
    upTo? commentEnd? (t ++ '-' :: '-' :: '>' :: rest) = some (t, t.length + 3) := by
  refine upTo?_append (by simp) (fun s some within => ?_) rfl
  exact commentEnd?_append some (content s some within) rfl rfl

end CommentContent

/-! ## Sections of character data -/

theorem bracketEnd?_cons (c : Char) (rest : Text) :
    bracketEnd? (c :: rest) = if c = ']' then (looseEnd? rest).map (· + 1) else none := by
  by_cases bracket : c = ']'
  · subst bracket
    rfl
  · rw [if_neg bracket, bracketEnd?]
    rintro more ⟨⟩
    exact bracket rfl

theorem bracketsEnd?_cons (c : Char) (rest : Text) : bracketsEnd? (c :: rest) =
    if c = ']' then
      (bracketEnd? (rest.dropWhile isBlank)).map (· + ((rest.takeWhile isBlank).length + 1))
    else none := by
  by_cases bracket : c = ']'
  · subst bracket
    rw [if_pos rfl, bracketsEnd?]
    simp only [drop_length_takeWhile]
  · rw [if_neg bracket, bracketsEnd?]
    rintro more ⟨⟩
    exact bracket rfl

/-- No ending of a marked section starts in front of a pair of brackets that ends one. -/
theorem bracketsEnd?_append {s : Text} (some : s ≠ []) (quiet : bracketsEnd? s = none)
    (rest : Text) : bracketsEnd? (s ++ ']' :: ']' :: '>' :: rest) = none := by
  have after : looseEnd? (']' :: ']' :: '>' :: rest) = none := by
    simp [looseEnd?_cons, show isBlank ']' = false by decide]
  have later : bracketEnd? (']' :: ']' :: '>' :: rest) = none := by
    simp [bracketEnd?_cons, looseEnd?_cons, show isBlank ']' = false by decide]
  obtain ⟨c, more, rfl⟩ := List.exists_cons_of_ne_nil some
  rw [bracketsEnd?_cons] at quiet
  rw [List.cons_append, bracketsEnd?_cons]
  by_cases bracket : c = ']'
  · rw [if_pos bracket] at quiet ⊢
    have inner := Option.map_eq_none_iff.mp quiet
    rw [List.dropWhile_append]
    split
    · rw [List.dropWhile_cons_of_neg (by decide), later]
      rfl
    · next visible =>
      obtain ⟨d, others, split⟩ := List.exists_cons_of_ne_nil (mt List.isEmpty_iff.mpr visible)
      rw [split, bracketEnd?_cons] at inner
      rw [split, List.cons_append, bracketEnd?_cons]
      by_cases second : d = ']'
      · rw [if_pos second] at inner ⊢
        rw [looseEnd?_append_eq_none (Option.map_eq_none_iff.mp inner) after]
        rfl
      · rw [if_neg second]
        rfl
  · rw [if_neg bracket]

/-- Whether the content of a section of character data holds no ending. -/
def DataContent (t : Text) : Prop := ∀ s, s ≠ [] → s <:+ t → bracketsEnd? s = none

theorem DataContent.cons {c : Char} (other : c ≠ ']') {t : Text} (content : DataContent t) :
    DataContent (c :: t) := by
  intro s some within
  rcases List.suffix_cons_iff.mp within with rfl | inside
  · rw [bracketsEnd?_cons, if_neg other]
  · exact content s some inside

theorem DataContent.upTo?_eq {t : Text} (content : DataContent t) (rest : Text) :
    upTo? bracketsEnd? (t ++ ']' :: ']' :: '>' :: rest) = some (t, t.length + 3) := by
  refine upTo?_append (by simp) (fun s some within => ?_) rfl
  exact bracketsEnd?_append some (content s some within) rest

/-! ## Reading -/

theorem Progress.add_eq (p : Progress) (node : Text → Node) (content : Text) : p.add node content =
    ⟨p.frames, node (p.textHere content) :: (p.pendingNodes ++ p.nodes), [], p.settled⟩ := by
  rw [add, flush_eq]
  rfl

/-- What starts with an exclamation mark is read by its own reader. -/
theorem tokensFrom_declaration {late : Bool} {x y : Text} {token : Token}
    (read : declaration? ('<' :: '!' :: (x ++ y)) = some ([token], x.length + 2)) :
    tokensFrom late 0 ('<' :: '!' :: x ++ y) = token :: tokensFrom late 0 y := by
  refine tokensFrom_token ?_
  simp [readAt, readTag, read]

theorem reads_comment {t : Text} (content : CommentContent t) (p : Progress) :
    Reads ("<!--" ++ t ++ "-->") p (p.add .comment t) := by
  have step : p.step (.comment t) = .ok (p.add .comment t) := rfl
  have text : "<!--" ++ t ++ "-->" = '<' :: '!' :: '-' :: '-' :: (t ++ ['-', '-', '>']) := rfl
  refine .of_token (fun late rest => ?_) step
  rw [text]
  refine tokensFrom_declaration ?_
  simp [declaration?, Text.startsWith, content.upTo?_eq rest]

theorem reads_doctype {t : Text} (inside : '>' ∉ t) (p : Progress) :
    Reads ("<!DOCTYPE " ++ t ++ ">") p (p.add .doctype t) := by
  have step : p.step (.doctype t) = .ok (p.add .doctype t) := rfl
  have text : "<!DOCTYPE " ++ t ++ ">" =
      '<' :: '!' :: ('D' :: 'O' :: 'C' :: 'T' :: 'Y' :: 'P' :: 'E' :: ' ' :: (t ++ ['>'])) := rfl
  refine .of_token (fun late rest => ?_) step
  have read : upTo? tagEnd? (' ' :: (t ++ '>' :: rest)) = some (' ' :: t, t.length + 2) :=
    upTo?_tagEnd? (x := ' ' :: t) (by simpa using inside) rest
  rw [text]
  refine tokensFrom_declaration ?_
  have keyword : Text.lower ['<', '!', 'D', 'O', 'C', 'T', 'Y', 'P', 'E'] = "<!doctype" := by decide
  simp [declaration?, Text.startsWith, keyword, read]

theorem reads_instruction {t : Text} (inside : '>' ∉ t) (p : Progress) :
    Reads ("<?" ++ t ++ ">") p (p.add .instruction t) := by
  have step : p.step (.instruction t) = .ok (p.add .instruction t) := rfl
  have text : "<?" ++ t ++ ">" = '<' :: '?' :: (t ++ ['>']) := rfl
  refine .of_token (fun late rest => ?_) step
  have read := upTo?_tagEnd? inside rest
  rw [text]
  refine tokensFrom_token ?_
  simp [readAt, readTag, read]

/-- A section of character data is read up to its brackets. -/
theorem markedSection?_data (more : Text) :
    markedSection? ('<' :: '!' :: '[' :: 'C' :: 'D' :: 'A' :: 'T' :: 'A' :: '[' :: more) =
      (upTo? bracketsEnd? ('C' :: 'D' :: 'A' :: 'T' :: 'A' :: '[' :: more)).map
        fun (content, n) => ([.marked content], n + 3) := by
  have word : ("CDATA".toList ++ '[' :: more).takeWhile isKeywordChar = "CDATA" :=
    takeWhile_append_of_head? (by decide) (by simp; decide)
  change ('C' :: 'D' :: 'A' :: 'T' :: 'A' :: '[' :: more).takeWhile isKeywordChar = _ at word
  have blanks : ('[' :: more).takeWhile isBlank = [] := List.takeWhile_cons_of_neg (by decide)
  have keyword : sectionKeywords.elem (Text.lower "CDATA") = true := by decide
  have longer : ('C' :: 'D' :: 'A' :: 'T' :: 'A' :: '[' :: more).length ≠ "CDATA".toList.length := by
    simp
  have behind : ('C' :: 'D' :: 'A' :: 'T' :: 'A' :: '[' :: more).drop "CDATA".toList.length =
      '[' :: more := rfl
  rw [markedSection?]
  simp only [List.drop_succ_cons, List.drop_zero, word, behind, blanks, keyword,
    List.length_nil, Nat.add_zero, if_neg longer, show isLetter 'C' = true by decide]
  rfl

theorem reads_data {t : Text} (content : DataContent t) (p : Progress) :
    Reads ("<![CDATA[" ++ t ++ "]]>") p (p.add .data t) := by
  have step : p.step (.marked ("CDATA[" ++ t)) = .ok (p.add .data t) := rfl
  have text : "<![CDATA[" ++ t ++ "]]>" =
      '<' :: '!' :: ('[' :: 'C' :: 'D' :: 'A' :: 'T' :: 'A' :: '[' :: (t ++ [']', ']', '>'])) := rfl
  refine .of_token (fun late rest => ?_) step
  have whole : DataContent ('C' :: 'D' :: 'A' :: 'T' :: 'A' :: '[' :: t) :=
    .cons (by decide) (.cons (by decide) (.cons (by decide) (.cons (by decide) (.cons (by decide)
      (.cons (by decide) content)))))
  have read := whole.upTo?_eq rest
  have section_ := markedSection?_data (t ++ ']' :: ']' :: '>' :: rest)
  rw [text]
  refine tokensFrom_declaration ?_
  simp only [List.cons_append] at read
  rw [read] at section_
  simpa [declaration?, Text.startsWith] using section_

end StaticSite.Markup
