import StaticSite.Markup.Reader
import StaticSite.Proofs.Markup.Tag
import StaticSite.Text.Escaped

/-! # Reading a piece of markup

A piece of markup `Reads` from one progress to another when that is what it does in front of
anything. Plain text and escaped text add to the pending text, start tags open elements and end tags
close them.
-/

namespace StaticSite.Markup

/-- What a piece of markup does, whatever stands behind it. -/
def Reads (x : Text) (p q : Progress) : Prop :=
  ∀ late rest, readFrom p (tokensFrom late 0 (x ++ rest)) = readFrom q (tokensFrom late 0 rest)

/-- Adds to the pending text. -/
def Progress.push (p : Progress) (t : Text) : Progress := { p with pending := p.pending ++ t }

theorem Progress.push_push (p : Progress) (s t : Text) : (p.push s).push t = p.push (s ++ t) := by
  simp [push]

theorem readFrom_text (p : Progress) (t : Text) (ts : List Token) :
    readFrom p (.text t :: ts) = readFrom (p.push t) ts := rfl

theorem readFrom_of_step {p q : Progress} {token : Token} (step : p.step token = .ok q)
    (ts : List Token) : readFrom p (token :: ts) = readFrom q ts := by
  rw [readFrom, step]
  rfl

namespace Reads

theorem nil (p : Progress) : Reads [] p p := fun _ _ => rfl

theorem append {x y : Text} {p q r : Progress} (first : Reads x p q) (second : Reads y q r) :
    Reads (x ++ y) p r := by
  intro late rest
  rw [List.append_assoc, first, second]

theorem of_token {x : Text} {token : Token} {p q : Progress}
    (read : ∀ late rest, tokensFrom late 0 (x ++ rest) = token :: tokensFrom late 0 rest)
    (step : p.step token = .ok q) : Reads x p q := by
  intro late rest
  rw [read, readFrom_of_step step]

end Reads

/-! ## Text -/

/-- Whether a character is neither the start of a tag nor of a reference. -/
def isPlain (c : Char) : Bool := c != '<' && c != '&'

theorem readAt_plain {c : Char} (plain : isPlain c = true) (late : Bool) (rest : Text) :
    readAt late c rest = ⟨[.text ((c :: rest).takeWhile isPlain)],
      ((c :: rest).takeWhile isPlain).length, late⟩ := by
  simp only [isPlain, Bool.and_eq_true, bne_iff_ne] at plain
  unfold readAt
  rw [if_neg plain.1, if_neg plain.2]
  rfl

/-- A run of plain text is one token. -/
theorem tokensFrom_run {x : Text} (plain : ∀ c ∈ x, isPlain c = true) (some : x ≠ []) {rest : Text}
    (ends : ∀ c ∈ rest.head?, isPlain c = false) (late : Bool) :
    tokensFrom late 0 (x ++ rest) = .text x :: tokensFrom late 0 rest := by
  obtain ⟨c, more, rfl⟩ := List.exists_cons_of_ne_nil some
  have run : (c :: (more ++ rest)).takeWhile isPlain = c :: more :=
    takeWhile_append_of_head? plain ends
  refine tokensFrom_token ?_
  rw [readAt_plain (plain c List.mem_cons_self), run, List.length_cons]

/-- Plain text is added to the pending text. -/
theorem reads_plain {x : Text} (plain : ∀ c ∈ x, isPlain c = true) (p : Progress) :
    Reads x p (p.push x) := by
  intro late rest
  by_cases some : x = []
  · subst some
    simp [Progress.push]
  · -- the plain text behind belongs to the same token
    have behind : ∀ c ∈ (rest.dropWhile isPlain).head?, isPlain c = false :=
      head?_dropWhile rest
    have run : ∀ c ∈ rest.takeWhile isPlain, isPlain c = true :=
      fun c member => List.mem_takeWhile_imp member
    have whole : ∀ c ∈ x ++ rest.takeWhile isPlain, isPlain c = true := by
      intro c member
      rcases List.mem_append.mp member with inside | later
      · exact plain c inside
      · exact run c later
    have all := tokensFrom_run whole (by simp [some]) behind late
    rw [List.append_assoc, List.takeWhile_append_dropWhile] at all
    rw [all, readFrom_text, ← Progress.push_push]
    by_cases none : rest.takeWhile isPlain = []
    · have same := List.takeWhile_append_dropWhile (p := isPlain) (l := rest)
      rw [none, List.nil_append] at same
      rw [none, same]
      simp [Progress.push]
    · have others := tokensFrom_run run none behind late
      rw [List.takeWhile_append_dropWhile] at others
      rw [others, readFrom_text]

/-- A table of references that content is read back from. -/
def ReadsBack (reference : Char → Option String) : Prop :=
  ∀ c, match reference c with
    | some s => ∀ late rest, tokensFrom late 0 (s.toList ++ rest) =
        .text [c] :: tokensFrom late 0 rest
    | none => isPlain c = true

/-- Escaped text adds the text that it was written for. -/
theorem reads_replaceEach {reference : Char → Option String} (back : ReadsBack reference) (t : Text)
    (p : Progress) : Reads (Text.replaceEach reference t) p (p.push t) := by
  induction t generalizing p with
  | nil => simpa [Progress.push, Text.replaceEach] using Reads.nil p
  | cons c rest ih =>
    have split : Text.replaceEach reference (c :: rest) =
        Text.replaceEach reference [c] ++ Text.replaceEach reference rest :=
      Text.replaceEach_append reference [c] rest
    have first : Reads (Text.replaceEach reference [c]) p (p.push [c]) := by
      have entry := back c
      cases found : reference c with
      | none =>
        simp only [found] at entry
        have single : Text.replaceEach reference [c] = [c] := by simp [Text.replaceEach, found]
        rw [single]
        exact reads_plain (by simpa using entry) p
      | some s =>
        simp only [found] at entry
        have single : Text.replaceEach reference [c] = s.toList := by
          simp [Text.replaceEach, found]
        rw [single]
        exact .of_token entry rfl
    have whole := first.append (ih (p.push [c]))
    rwa [Progress.push_push, ← split] at whole

/-- A named reference in content is read with its semicolon. -/
theorem tokensFrom_named (name : Text) {c : Char} (some : name ≠ [])
    (word : ∀ d ∈ name, isLetter d = true) (found : namedText name = [c]) (late : Bool)
    (rest : Text) :
    tokensFrom late 0 ('&' :: (name ++ [';']) ++ rest) = .text [c] :: tokensFrom late 0 rest := by
  refine tokensFrom_token ?_
  have run : (name ++ ';' :: rest).takeWhile
      (fun d => isLetterOrDigit d || d == '-' || d == '.') = name := by
    refine takeWhile_append_of_head? (fun d member => ?_) (by simp; decide)
    simp [isLetterOrDigit, word d member]
  obtain ⟨d, more, split⟩ := List.exists_cons_of_ne_nil some
  have letter : isLetter d = true := word d (by simp [split])
  have notNumber : d ≠ '#' := by rintro rfl; exact absurd letter (by decide)
  have step : readName late ('&' :: (name ++ ';' :: rest)) =
      ⟨[.text [c]], (name ++ [';']).length + 1, late⟩ := by
    simp only [readName, List.drop_succ_cons, List.drop_zero, run, List.drop_left, found]
    simp [semicolonLength]
    omega
  rw [List.append_assoc, List.singleton_append, ← step, split]
  unfold readAt
  rw [if_neg (by decide), if_pos rfl]
  simp [letter]

theorem readsBack_contentReference : ReadsBack Text.contentReference := by
  intro c
  unfold Text.contentReference
  split
  · next found =>
    split at found <;> cases found
    · exact tokensFrom_named "amp" (by decide) (by decide) rfl
    · exact tokensFrom_named "lt" (by decide) (by decide) rfl
    · exact tokensFrom_named "gt" (by decide) (by decide) rfl
  · next found =>
    split at found <;> simp_all [isPlain]

theorem readsBack_attributeReference : ReadsBack Text.attributeReference := by
  intro c
  by_cases double : c = '"'
  · subst double
    exact tokensFrom_named "quot" (by decide) (by decide) rfl
  · by_cases single : c = '\''
    · subst single
      exact fun late rest => rfl
    · have same : Text.attributeReference c = Text.contentReference c := by
        rw [Text.attributeReference]
        · exact double
        · exact single
      rw [same]
      exact readsBack_contentReference c

/-! ## Elements -/

/-- A lower-case name that an element can have. -/
structure ElementName (name : Text) : Prop extends TagName name where
  lower : Text.lower name = name
  closable : isClosable name = true

/-- The node of the pending text. -/
def Progress.pendingNodes (p : Progress) : List Node :=
  if p.pending.isEmpty then [] else [.text (p.textHere p.pending)]

theorem Progress.flush_eq (p : Progress) :
    p.flush = ⟨p.frames, p.pendingNodes ++ p.nodes, [], p.settled⟩ := by
  obtain ⟨frames, nodes, pending, settled⟩ := p
  cases pending <;> rfl

theorem Progress.openElement_eq (p : Progress) (name : Text) (attributes : Attributes) :
    p.openElement name attributes =
      ⟨⟨name, attributes, p.pendingNodes ++ p.nodes⟩ :: p.frames, [], [], p.settled⟩ := by
  rw [openElement, flush_eq]

/-- Closing the innermost element puts it behind the nodes before it. -/
theorem Progress.closeElement_eq {p : Progress} {name : Text} {attributes : Attributes}
    {before : List Node} {frames : List Frame}
    (open_ : p.frames = ⟨name, attributes, before⟩ :: frames) :
    p.closeElement name = .ok ⟨frames,
      .element name attributes (p.pendingNodes ++ p.nodes).reverse :: before, [], p.settled⟩ := by
  rw [closeElement, flush_eq, open_]
  simp

/-- An element that is closed at once has no content. -/
theorem Progress.closeElement_openElement (p : Progress) (name : Text) (attributes : Attributes) :
    (p.openElement name attributes).closeElement name =
      .ok ⟨p.frames, .element name attributes [] :: (p.pendingNodes ++ p.nodes), [], p.settled⟩ := by
  rw [closeElement_eq (by rw [openElement_eq]), openElement_eq]
  rfl

theorem Progress.finish_eq {p : Progress} {name : Text} (open_ : name ∉ p.settled) :
    p.finish name = p.closeElement name := by simp [finish, open_]

section Elements

variable {name : Text} (named : TagName name)
include named

section Tags

variable {gap tail : Text} (spacing : Spacing gap tail) {as : List TagAttribute}
variable (sound : ∀ a ∈ as, a.Sound) (separate : TagAttribute.Separate as)
include spacing sound separate

/-- A start tag opens an element. -/
theorem reads_startTag (notRaw : rawElements.elem (Text.lower name) = false)
    (notClosing : selfClosingElements.elem (Text.lower name) = false) (p : Progress) :
    Reads (tagText name gap tail as false) p
      (p.openElement (Text.lower name) (Fields.putAll [] (as.map TagAttribute.pair))) := by
  refine .of_token (fun late rest => tokensFrom_tagText named late spacing sound separate
    false (.inr notRaw) rest) ?_
  simp only [Progress.step, notClosing]
  rfl

/-- A tag with a slash at its end is a whole element. -/
theorem reads_slashTag (p : Progress) :
    Reads (tagText name gap tail as true) p ⟨p.frames,
      .element (Text.lower name) (Fields.putAll [] (as.map TagAttribute.pair)) [] ::
        (p.pendingNodes ++ p.nodes), [], p.settled⟩ := by
  refine .of_token (fun late rest => tokensFrom_tagText named late spacing sound separate
    true (.inl rfl) rest) ?_
  simp only [Progress.step, if_true, Progress.closeElement_openElement]

end Tags

/-- An end tag finishes an element. -/
theorem reads_endTag (closable : isClosable name = true) {p q : Progress}
    (closes : p.finish (Text.lower name) = .ok q) : Reads ('<' :: '/' :: name ++ ['>']) p q :=
  .of_token (fun late rest => tokensFrom_endTag named late closable rest) closes

end Elements

end StaticSite.Markup
