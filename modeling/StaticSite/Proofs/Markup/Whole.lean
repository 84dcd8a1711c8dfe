import StaticSite.Proofs.Markup.Sound
import StaticSite.Proofs.Stylesheet.Blanks

/-! # Whole pieces of markup

A piece of markup is whole when it can stand in any element: it leaves the elements open that are
open before it, and each style element in it can be laid out. Markup of nothing but blanks and whole
pieces stays such when blanks at its ends are trimmed.
-/

namespace StaticSite.Markup

/-! ## Nodes that can be laid out -/

/-- Whether the content of a style element is blank or has a layout. -/
def FitSheet (t : Text) : Prop := t.isBlank = true ∨ Stylesheet.Accepted t

mutual

/-- Whether each style element of a node can be laid out. -/
def Node.Fit : Node → Prop
  | .element name _ children => (name = "style" → FitSheet (rawBody children)) ∧ FitAll children
  | _ => True

/-- Whether each style element of nodes can be laid out. -/
def FitAll : List Node → Prop
  | [] => True
  | node :: rest => node.Fit ∧ FitAll rest

end

/-- Content of raw elements is written as it is. -/
theorem rawBody_text (t : Text) : rawBody [.text t] = t := List.append_nil t

theorem fitAll_iff {ns : List Node} : FitAll ns ↔ ∀ n ∈ ns, n.Fit := by
  induction ns with
  | nil => simp [FitAll]
  | cons n rest ih => simp [FitAll, ih]

mutual

/-- A node can be laid out when each style element in it can. -/
theorem exists_nodeLines (style : Style) (depth : Nat) : ∀ {n : Node}, n.Fit →
    ∃ lines, nodeLines style depth n = .ok lines
  | .element name attributes children, fit => by
    obtain ⟨sheet, inside⟩ := fit
    obtain ⟨content, below⟩ := exists_allLines style (depth + 1) inside
    rw [nodeLines]
    dsimp only
    by_cases void : voidElements.elem name = true
    · exact ⟨_, if_pos void⟩
    rw [if_neg void]
    by_cases counts : verbatimElements.elem name = true
    · exact ⟨_, if_pos counts⟩
    rw [if_neg counts]
    by_cases raw : rawElements.elem name = true
    · rw [if_pos raw]
      by_cases blank : (rawBody children).isBlank = true
      · exact ⟨_, if_pos blank⟩
      · have lines : ∃ lines, rawLines style depth name (rawBody children) = .ok lines := by
          unfold rawLines
          split
          · exact ⟨_, rfl⟩
          · by_cases sheets : name = "style"
            · obtain ⟨out, laid⟩ := ((sheet sheets).resolve_left blank).format style
              rw [if_pos sheets, laid]
              exact ⟨_, rfl⟩
            · exact ⟨_, if_neg sheets⟩
        obtain ⟨lines, laid⟩ := lines
        rw [if_neg blank, laid]
        exact ⟨_, rfl⟩
    rw [if_neg raw]
    by_cases keeps : keepsInline name children = true
    · exact ⟨_, if_pos keeps⟩
    rw [if_neg keeps]
    by_cases blank : children.all Node.isBlank = true
    · exact ⟨_, if_pos blank⟩
    · rw [if_neg blank, below]
      exact ⟨_, rfl⟩
  | .text t, _ => ⟨_, rfl⟩
  | .comment t, _ => ⟨_, rfl⟩
  | .doctype t, _ => ⟨_, rfl⟩
  | .data t, _ => ⟨_, rfl⟩
  | .declaration t, _ => ⟨_, rfl⟩
  | .instruction t, _ => ⟨_, rfl⟩

/-- Nodes can be laid out when each style element in them can. -/
theorem exists_allLines (style : Style) (depth : Nat) : ∀ {ns : List Node}, FitAll ns →
    ∃ lines, allLines style depth ns = .ok lines
  | [], _ => ⟨_, rfl⟩
  | n :: rest, fit => by
    obtain ⟨first, here⟩ := exists_nodeLines style depth fit.1
    obtain ⟨others, later⟩ := exists_allLines style depth fit.2
    rw [allLines, here, later]
    exact ⟨_, rfl⟩

end

theorem exists_layoutLines (style : Style) {ns : List Node} (fit : FitAll ns) :
    ∃ lines, layoutLines style ns = .ok lines := by
  rw [layoutLines]
  by_cases shows : showsBreaks ns = true
  · exact ⟨_, if_pos shows⟩
  · rw [if_neg shows]
    exact exists_allLines style 0 fit

/-! ## Whole pieces -/

/-- What has been read behind a whole piece: the open elements are the same, and what can be laid out
still can. -/
structure Progress.Onward (p q : Progress) : Prop where
  frames : q.frames = p.frames
  calm : q.Calm
  fit : FitAll p.nodes → FitAll q.nodes

theorem Progress.Onward.trans {p q r : Progress} (first : p.Onward q) (second : q.Onward r) :
    p.Onward r :=
  ⟨second.frames.trans first.frames, second.calm, fun fit => second.fit (first.fit fit)⟩

theorem fitAll_pendingNodes (p : Progress) : FitAll p.pendingNodes := by
  unfold Progress.pendingNodes
  split
  · trivial
  · exact ⟨trivial, trivial⟩

theorem fitAll_append {ns ms : List Node} : FitAll (ns ++ ms) ↔ FitAll ns ∧ FitAll ms := by
  simp only [fitAll_iff, List.mem_append]
  exact ⟨fun all => ⟨fun n member => all n (.inl member), fun n member => all n (.inr member)⟩,
    fun both n member => member.elim (both.1 n) (both.2 n)⟩

/-- What a node is put behind goes onward when the node can be laid out. -/
theorem Progress.onward_of_put {p q : Progress} {n : Node} (other : n.isText = false) (fit : n.Fit)
    (same : q.frames = (p.put n).frames ∧ q.nodes = (p.put n).nodes) (calm : q.Calm) :
    p.Onward q := by
  rw [put_of_isText other] at same
  refine ⟨same.1, calm, fun before => ?_⟩
  rw [same.2]
  exact ⟨fit, fitAll_append.mpr ⟨fitAll_pendingNodes p, before⟩⟩

theorem Progress.onward_put {p : Progress} {n : Node} (other : n.isText = false) (fit : n.Fit)
    (calm : p.Calm) : p.Onward (p.put n) := onward_of_put other fit ⟨rfl, rfl⟩ (calm.put n)

/-- Whether a piece of markup is whole. -/
def Whole (x : Text) : Prop := ∀ p : Progress, p.Calm → ∃ q, Reads x p q ∧ p.Onward q

namespace Whole

theorem append {x y : Text} (first : Whole x) (second : Whole y) : Whole (x ++ y) := by
  intro p calm
  obtain ⟨q, here, onward⟩ := first p calm
  obtain ⟨r, later, further⟩ := second q onward.calm
  exact ⟨r, here.append later, onward.trans further⟩

/-- A text that is read as text is whole. -/
theorem of_push {x t : Text} (reads : ∀ p, Reads x p (p.push t)) : Whole x :=
  fun p calm => ⟨p.push t, reads p, rfl, calm, id⟩

theorem plain {x : Text} (plain : ∀ c ∈ x, isPlain c = true) : Whole x := .of_push (reads_plain plain)

theorem nil : Whole [] := .plain (by simp)

theorem escaped {reference : Char → Option String} (back : ReadsBack reference) (t : Text) :
    Whole (Text.replaceEach reference t) := .of_push (reads_replaceEach back t)

/-- A construct without children is whole. -/
theorem of_add {x t : Text} (node : Text → Node) (other : ∀ t, (node t).isText = false)
    (fit : ∀ t, (node t).Fit) (reads : ∀ p, Reads x p (p.add node t)) : Whole x := by
  intro p calm
  have same : p.add node t = p.put (node (p.textHere t)) := by
    rw [Progress.add_eq, Progress.put_of_isText (other _)]
  exact ⟨_, reads p, same ▸ Progress.onward_put (other _) (fit _) calm⟩

end Whole

/-- The text of a style element counts as blank or as it is. -/
theorem FitSheet.textIn {t : Text} (fit : FitSheet t) (verbatim : Bool) : FitSheet (textIn verbatim t) :=
  textIn_induction (.inl (by decide)) (.inl (by decide)) fit verbatim

theorem fit_empty {name : Text} (closing : selfClosingElements.elem name = true)
    (attributes : Attributes) : (Node.element name attributes []).Fit := by
  refine ⟨?_, trivial⟩
  rintro rfl
  exact absurd closing (by decide)

/-- The start tag of an element that closes itself is whole. -/
theorem whole_selfClosingTag {name : Text} (named : TagName name) (lower : Text.lower name = name)
    (closing : selfClosingElements.elem name = true) {gap tail : Text} (spacing : Spacing gap tail)
    {as : List TagAttribute} (sound : ∀ a ∈ as, a.Sound) (separate : TagAttribute.Separate as) :
    Whole (tagText name gap tail as false) := by
  intro p calm
  exact ⟨_, reads_selfClosingTag named lower closing spacing sound separate p,
    Progress.onward_of_put rfl (fit_empty closing _) ⟨rfl, rfl⟩
      (List.forall_mem_cons.mpr ⟨List.elem_iff.mp closing, calm⟩)⟩

/-- Content of the same words can be laid out alike. -/
theorem FitSheet.of_words {s t : Text} (fit : FitSheet s) (same : Text.words s = Text.words t) :
    FitSheet t := by
  rcases fit with blank | accepted
  · refine .inl (Text.isBlank_of_words ?_)
    rw [← same, Text.words_of_blanks (List.all_eq_true.mp blank)]
  · exact .inr (accepted.of_words same)

section Elements

variable {name : Text} {attributes : Attributes} (sound : SoundAttributes attributes) {bare : Bool}
variable (separate : TagAttribute.Separate (attributes.map (attributeTag bare)))
variable {gap tail : Text} (spacing : Spacing gap tail)
include sound separate spacing

/-- An element is whole when its content is. -/
theorem whole_element (named : ElementName name) (notRaw : rawElements.elem name = false)
    (notClosing : selfClosingElements.elem name = false) {x : Text} (inside : Whole x) :
    Whole (tagText name gap tail (attributes.map (attributeTag bare)) false ++ x ++ endTag name) := by
  intro p calm
  have notStyle : name ≠ "style" := by
    rintro rfl
    exact absurd notRaw (by decide)
  obtain ⟨r, reads, onward⟩ := inside _ (calm.openElement name attributes)
  refine ⟨_, reads_element sound separate spacing named notRaw notClosing reads onward.frames
    onward.calm, Progress.onward_of_put rfl ?_ ⟨rfl, rfl⟩ onward.calm⟩
  have within : FitAll r.nodes := onward.fit (by rw [Progress.openElement_eq]; trivial)
  refine ⟨fun same => absurd same notStyle, ?_⟩
  have gathered := fitAll_append.mpr ⟨fitAll_pendingNodes r, within⟩
  rw [fitAll_iff] at gathered ⊢
  simpa [Progress.gathered, or_comm] using gathered

/-- An element that closes itself is whole with its end tag. -/
theorem whole_selfClosingElement (named : ElementName name)
    (closing : selfClosingElements.elem name = true) :
    Whole (tagText name gap tail (attributes.map (attributeTag bare)) false ++ endTag name) := by
  intro p calm
  exact ⟨_, reads_selfClosingElement sound separate spacing named closing,
    Progress.onward_put rfl (fit_empty closing _) calm⟩

/-- A tag with a slash at its end is whole. -/
theorem whole_slashElement (named : TagName name) (lower : Text.lower name = name)
    (closing : selfClosingElements.elem name = true) :
    Whole (tagText name gap tail (attributes.map (attributeTag bare)) true) := by
  intro p calm
  exact ⟨_, reads_slashElement sound separate spacing named lower,
    Progress.onward_put rfl (fit_empty closing _) calm⟩

/-- An element with raw content is whole when the content has no end tag and can be laid out. -/
theorem whole_rawElement (raw : name ∈ rawElements) {t : Text} (content : RawContent name t)
    (fit : name = "style" → FitSheet t) :
    Whole (tagText name gap tail (attributes.map (attributeTag bare)) false ++ t ++ endTag name) := by
  intro p calm
  refine ⟨_, reads_rawElement sound separate spacing raw content calm,
    Progress.onward_put rfl ?_ calm⟩
  split
  · exact ⟨fun _ => .inl rfl, trivial⟩
  · refine ⟨fun same => ?_, ⟨trivial, trivial⟩⟩
    rw [rawBody_text]
    exact (fit same).textIn _

end Elements

/-! ## Blanks between whole pieces -/

/-- Whether a text starts and ends with characters that are not blank. -/
structure Solid (x : Text) : Prop where
  head : ∃ c ∈ x.head?, isBlank c = false
  last : ∃ c ∈ x.getLast?, isBlank c = false

/-- Texts of blanks and of whole pieces that start and end with no blank. -/
inductive Woven : Text → Prop
  | nil : Woven []
  | blank {c : Char} {t : Text} (blank : isBlank c = true) (rest : Woven t) : Woven (c :: t)
  | piece {x t : Text} (solid : Solid x) (whole : Whole x) (rest : Woven t) : Woven (x ++ t)

theorem isPlain_of_isBlank {c : Char} (blank : isBlank c = true) : isPlain c = true := by
  simp only [isPlain, Bool.and_eq_true, bne_iff_ne]
  exact ⟨Stylesheet.ne_of_isBlank blank (by decide), Stylesheet.ne_of_isBlank blank (by decide)⟩

namespace Woven

theorem of_piece {x : Text} (solid : Solid x) (whole : Whole x) : Woven x := by
  have one := piece solid whole .nil
  rwa [List.append_nil] at one

theorem whole {t : Text} (woven : Woven t) : Whole t := by
  induction woven with
  | nil => exact .nil
  | @blank c t blank rest ih =>
    have first : Whole [c] := .plain (by simpa using isPlain_of_isBlank blank)
    exact first.append ih
  | piece solid whole rest ih => exact whole.append ih

theorem append {s t : Text} (first : Woven s) (second : Woven t) : Woven (s ++ t) := by
  induction first with
  | nil => exact second
  | blank blank rest ih => exact .blank blank ih
  | piece solid whole rest ih =>
    rw [List.append_assoc]
    exact .piece solid whole ih

theorem of_blanks {t : Text} (all : ∀ c ∈ t, isBlank c = true) : Woven t := by
  induction t with
  | nil => exact .nil
  | cons c rest ih =>
    obtain ⟨here, others⟩ := List.forall_mem_cons.mp all
    exact .blank here (ih others)

section Trimming

variable {drop : Char → Bool} (blanks : ∀ c, drop c = true → isBlank c = true)
include blanks

theorem keeps {c : Char} (visible : isBlank c = false) : drop c = false :=
  Bool.eq_false_iff.mpr fun drops => by
    rw [blanks c drops] at visible
    cases visible

theorem dropWhile {t : Text} (woven : Woven t) : Woven (t.dropWhile drop) := by
  induction woven with
  | nil => exact .nil
  | @blank c t blank rest ih =>
    by_cases drops : drop c = true
    · rw [List.dropWhile_cons_of_pos drops]
      exact ih
    · rw [List.dropWhile_cons_of_neg drops]
      exact .blank blank rest
  | @piece x t solid whole rest ih =>
    obtain ⟨c, first, visible⟩ := solid.head
    obtain ⟨more, rfl⟩ := List.head?_eq_some_iff.mp first
    rw [List.cons_append, List.dropWhile_cons_of_neg (by simp [keeps blanks visible])]
    exact .piece solid whole rest

theorem rdropWhile {t : Text} (woven : Woven t) : Woven (t.rdropWhile drop) := by
  induction woven with
  | nil => exact .nil
  | @blank c t blank rest ih =>
    rw [← List.singleton_append]
    rcases rdropWhile_append_cases (p := drop) [c] t with kept | ⟨-, kept⟩
    · rw [kept]
      exact .blank blank ih
    · rw [kept]
      refine of_blanks fun d member => ?_
      rw [List.mem_singleton.mp ((List.rdropWhile_prefix drop [c]).subset member)]
      exact blank
  | @piece x t solid whole rest ih =>
    obtain ⟨c, last, visible⟩ := solid.last
    rw [rdropWhile_append_of_getLast? x fun d final => ?_]
    · exact .piece solid whole ih
    · obtain rfl : c = d := Option.some.inj (last.symm.trans final)
      exact keeps blanks visible

theorem trimBy {t : Text} (woven : Woven t) : Woven (Text.trimBy drop t) :=
  (woven.dropWhile blanks).rdropWhile blanks

end Trimming

theorem trim {t : Text} (woven : Woven t) : Woven t.trim := woven.trimBy fun _ => id

theorem trimSpaces {t : Text} (woven : Woven t) : Woven t.trimSpaces := by
  refine woven.trimBy fun c space => ?_
  obtain rfl : c = ' ' := by simpa using space
  decide

end Woven

end StaticSite.Markup
