import StaticSite.Proofs.Markup.Attributes
import StaticSite.Proofs.Markup.Raw

/-! # Gathering nodes

A node is `put` behind what has been read: a text is pending until the next node or the end of its
element. Nodes that are put one after the other are gathered one by one when no two texts are
neighbours, each text as it counts.
-/

namespace StaticSite.Markup

/-- A text as it counts: where white space does not count, a text of nothing else is one newline or
one space. -/
def textIn (verbatim : Bool) (t : Text) : Text :=
  if !verbatim && t.all isMarkupBlank then (if t.elem '\n' then ['\n'] else [' ']) else t

theorem Progress.textHere_eq (p : Progress) (t : Text) : p.textHere t = textIn p.isVerbatim t := rfl

theorem textIn_of_exists {t : Text} (visible : ∃ c ∈ t, isMarkupBlank c = false) (verbatim : Bool) :
    textIn verbatim t = t := by
  obtain ⟨c, member, other⟩ := visible
  refine if_neg fun blank => ?_
  rw [Bool.and_eq_true, List.all_eq_true] at blank
  rw [blank.2 c member] at other
  cases other

theorem textIn_textIn (verbatim : Bool) (t : Text) :
    textIn verbatim (textIn verbatim t) = textIn verbatim t := by
  by_cases blank : (!verbatim && t.all isMarkupBlank) = true
  · obtain ⟨counts, -⟩ := Bool.and_eq_true_iff.mp blank
    have once : textIn verbatim t = ['\n'] ∨ textIn verbatim t = [' '] := by
      rw [textIn, if_pos blank]
      split
      · exact .inl rfl
      · exact .inr rfl
    rcases once with newline | space
    · rw [newline, textIn, counts]
      rfl
    · rw [space, textIn, counts]
      rfl
  · have same : textIn verbatim t = t := if_neg blank
    rw [same, same]

/-- Whether a node is a text. -/
def Node.isText : Node → Bool
  | .text _ => true
  | _ => false

/-- Whether no two neighbours are texts. -/
def Apart (ns : List Node) : Prop := ns.IsChain fun a b => ¬(a.isText = true ∧ b.isText = true)

namespace Progress

/-- The nodes of the innermost element. -/
def gathered (p : Progress) : List Node := (p.pendingNodes ++ p.nodes).reverse

/-- Puts a node behind what has been read. -/
def put (p : Progress) : Node → Progress
  | .text t => p.push t
  | n => ⟨p.frames, n :: (p.pendingNodes ++ p.nodes), [], p.settled⟩

/-- Puts nodes behind what has been read. -/
def putAll (p : Progress) (ns : List Node) : Progress := ns.foldl put p

theorem put_of_isText {n : Node} (other : n.isText = false) (p : Progress) :
    p.put n = ⟨p.frames, n :: (p.pendingNodes ++ p.nodes), [], p.settled⟩ := by
  cases n with
  | text t => cases other
  | _ => rfl

theorem put_keeps (p : Progress) (n : Node) :
    (p.put n).frames = p.frames ∧ (p.put n).settled = p.settled := by
  cases n <;> exact ⟨rfl, rfl⟩

theorem putAll_keeps (p : Progress) (ns : List Node) :
    (p.putAll ns).frames = p.frames ∧ (p.putAll ns).settled = p.settled := by
  induction ns generalizing p with
  | nil => exact ⟨rfl, rfl⟩
  | cons n rest ih =>
    obtain ⟨frames, settled⟩ := put_keeps p n
    exact ⟨(ih (p.put n)).1.trans frames, (ih (p.put n)).2.trans settled⟩

/-- Whether an end tag may still come for elements that close themselves only. -/
def Calm (p : Progress) : Prop := ∀ name ∈ p.settled, name ∈ selfClosingElements

theorem Calm.not_mem {p : Progress} (calm : p.Calm) {name : Text}
    (notClosing : selfClosingElements.elem name = false) : name ∉ p.settled := by
  intro member
  rw [List.elem_iff.mpr (calm name member)] at notClosing
  cases notClosing

theorem Calm.of_nil {p : Progress} (none : p.settled = []) : p.Calm := by simp [Calm, none]

theorem Calm.put {p : Progress} (calm : p.Calm) (n : Node) : (p.put n).Calm := by
  rw [Calm, (put_keeps p n).2]
  exact calm

theorem Calm.openElement {p : Progress} (calm : p.Calm) (name : Text) (attributes : Attributes) :
    (p.openElement name attributes).Calm := by
  rw [openElement_eq]
  exact calm

theorem isVerbatim_of_frames {p q : Progress} (same : q.frames = p.frames) :
    q.isVerbatim = p.isVerbatim := by
  rw [isVerbatim, isVerbatim, same]

theorem isVerbatim_put (p : Progress) (n : Node) : (p.put n).isVerbatim = p.isVerbatim :=
  isVerbatim_of_frames (put_keeps p n).1

theorem isVerbatim_openElement (p : Progress) (name : Text) (attributes : Attributes) :
    (p.openElement name attributes).isVerbatim = (verbatimElements.elem name || p.isVerbatim) := by
  rw [openElement_eq]
  rfl

theorem pendingNodes_of_nil {p : Progress} (none : p.pending = []) : p.pendingNodes = [] := by
  rw [pendingNodes, none]
  rfl

theorem pendingNodes_push {p : Progress} (none : p.pending = []) {t : Text} (some : t ≠ []) :
    (p.push t).pendingNodes = [.text (textIn p.isVerbatim t)] := by
  have pending : (p.push t).pending = t := by simp [push, none]
  rw [pendingNodes, pending, if_neg (by simpa using some)]
  rfl

end Progress

/-- A node as it counts among others. -/
def Node.counted (verbatim : Bool) : Node → Node
  | .text t => .text (textIn verbatim t)
  | n => n

theorem Node.counted_of_isText {n : Node} (other : n.isText = false) (verbatim : Bool) :
    n.counted verbatim = n := by
  cases n with
  | text t => cases other
  | _ => rfl

/-- Whether nodes are gathered one by one: no text is empty and no two texts are neighbours. -/
structure Tidy (ns : List Node) : Prop where
  apart : Apart ns
  some : ∀ t, .text t ∈ ns → t ≠ []

theorem Tidy.tail {n : Node} {ns : List Node} (tidy : Tidy (n :: ns)) : Tidy ns :=
  ⟨tidy.apart.tail, fun t member => tidy.some t (List.mem_cons_of_mem n member)⟩

/-- Tidy nodes are gathered as they count. -/
theorem Progress.gathered_putAll {p : Progress} (none : p.pending = []) {ns : List Node}
    (tidy : Tidy ns) :
    (p.putAll ns).gathered = p.nodes.reverse ++ ns.map (Node.counted p.isVerbatim) := by
  have step (p : Progress) {n : Node} (other : n.isText = false) (rest : List Node) :
      (p.put n).pending = [] ∧ (p.put n).nodes.reverse ++ rest =
        (p.pendingNodes ++ p.nodes).reverse ++ n :: rest := by
    rw [put_of_isText other]
    simp
  induction length : ns.length using Nat.strong_induction_on generalizing ns p with
  | _ k ih =>
  cases ns with
  | nil =>
    rw [putAll, List.foldl_nil, gathered, pendingNodes_of_nil none]
    simp
  | cons n rest =>
    by_cases other : n.isText = false
    · obtain ⟨behind, nodes⟩ := step p other (rest.map (Node.counted p.isVerbatim))
      have later := ih rest.length (by simp at length; omega) behind tidy.tail rfl
      have whole : p.putAll (n :: rest) = (p.put n).putAll rest := rfl
      rw [whole, later, isVerbatim_put, nodes, pendingNodes_of_nil none, List.map_cons,
        Node.counted_of_isText other]
      simp
    · obtain ⟨t, rfl⟩ : ∃ t, n = .text t := by
        cases n with
        | text t => exact ⟨t, rfl⟩
        | _ => exact absurd rfl other
      have visible := tidy.some t List.mem_cons_self
      cases rest with
      | nil =>
        have whole : (p.putAll [.text t]).gathered = (p.push t).gathered := rfl
        rw [whole, gathered, pendingNodes_push none visible]
        simp [push, Node.counted]
      | cons m more =>
        have next : m.isText = false := by
          have first := (List.isChain_cons_cons.mp tidy.apart).1
          simpa [Node.isText] using first
        obtain ⟨behind, nodes⟩ := step (p.push t) next (more.map (Node.counted p.isVerbatim))
        have verbatim : ((p.push t).put m).isVerbatim = p.isVerbatim := isVerbatim_put (p.push t) m
        have later := ih more.length (by simp at length; omega) behind tidy.tail.tail rfl
        have whole : p.putAll (.text t :: m :: more) = ((p.push t).put m).putAll more := rfl
        rw [whole, later, verbatim, nodes, pendingNodes_push none visible, List.map_cons, List.map_cons,
          Node.counted_of_isText next]
        simp [push, Node.counted]

/-! ## Elements -/

theorem notVerbatim_of_mem_rawElements {name : Text} (raw : name ∈ rawElements) :
    verbatimElements.elem name = false ∧ selfClosingElements.elem name = false := by
  revert name
  decide

/-- Raw content and its end tag make an element of what they follow. -/
theorem readFrom_rawTokens {name : Text} (raw : name ∈ rawElements) {p : Progress}
    (calm : p.Calm) (attributes : Attributes) (t : Text) (rest : List Token) :
    readFrom p (.start name attributes false :: (rawTokens name t ++ rest)) =
      readFrom (p.put (.element name attributes
        (if t.isEmpty then [] else [.text (textIn p.isVerbatim t)]))) rest := by
  obtain ⟨notVerbatim, notClosing⟩ := notVerbatim_of_mem_rawElements raw
  have opens : p.step (.start name attributes false) = .ok (p.openElement name attributes) := by
    simp only [Progress.step, notClosing]
    rfl
  have verbatim : (p.openElement name attributes).isVerbatim = p.isVerbatim := by
    rw [Progress.isVerbatim_openElement, notVerbatim, Bool.false_or]
  have opened : (p.openElement name attributes).pending = [] := by rw [Progress.openElement_eq]
  have closes (t : Text) : ((p.openElement name attributes).push t).step (.finish name) =
      .ok (p.put (.element name attributes
        (if t.isEmpty then [] else [.text (textIn p.isVerbatim t)]))) := by
    have settled : ((p.openElement name attributes).push t).settled = p.settled := by
      rw [Progress.openElement_eq]
      rfl
    have frames : ((p.openElement name attributes).push t).frames =
        ⟨name, attributes, p.pendingNodes ++ p.nodes⟩ :: p.frames := by
      rw [Progress.openElement_eq]
      rfl
    have pending : ((p.openElement name attributes).push t).pendingNodes =
        if t.isEmpty then [] else [.text (textIn p.isVerbatim t)] := by
      by_cases empty : t = []
      · subst empty
        exact Progress.pendingNodes_of_nil (by simp [Progress.push, opened])
      · rw [Progress.pendingNodes_push opened empty, verbatim]
        simp [empty]
    have nodes : ((p.openElement name attributes).push t).nodes = [] := by
      rw [Progress.openElement_eq]
      rfl
    have open_ : name ∉ ((p.openElement name attributes).push t).settled :=
      settled ▸ calm.not_mem notClosing
    rw [Progress.step, Progress.finish_eq open_, Progress.closeElement_eq frames, settled, pending,
      nodes]
    split <;> simp [Progress.put]
  rw [readFrom_of_step opens, rawTokens]
  by_cases empty : t = []
  · subst empty
    have closed := closes []
    rw [Progress.push, List.append_nil] at closed
    exact readFrom_of_step closed _
  · rw [if_neg (by simpa using empty)]
    exact readFrom_of_step (closes t) _

theorem notRaw_of_selfClosing {name : Text} (closing : selfClosingElements.elem name = true) :
    rawElements.elem name = false := by
  have apart : ∀ other ∈ rawElements, selfClosingElements.elem other = false := by decide
  refine Bool.eq_false_iff.mpr fun raw => ?_
  rw [apart name (List.elem_iff.mp raw)] at closing
  cases closing

/-- The start tag of an element that closes itself puts the element, and an end tag may follow. -/
theorem reads_selfClosingTag {name : Text} (named : TagName name) (lower : Text.lower name = name)
    (closing : selfClosingElements.elem name = true) {gap tail : Text} (spacing : Spacing gap tail)
    {as : List TagAttribute} (sound : ∀ a ∈ as, a.Sound) (separate : TagAttribute.Separate as)
    (p : Progress) : Reads (tagText name gap tail as false) p
      { p.put (.element name (Fields.putAll [] (as.map TagAttribute.pair)) []) with
        settled := name :: p.settled } := by
  have read (late : Bool) (rest : Text) := tokensFrom_tagText named late spacing sound separate false
    (.inr (lower.symm ▸ notRaw_of_selfClosing closing)) rest
  simp only [lower] at read
  refine .of_token read ?_
  simp only [Progress.step, closing, Progress.closeElement_openElement, Except.map]
  rfl

section Elements

variable {name : Text} {attributes : Attributes} (sound : SoundAttributes attributes) {bare : Bool}
variable (separate : TagAttribute.Separate (attributes.map (attributeTag bare)))
variable {gap tail : Text} (spacing : Spacing gap tail) {p : Progress}
include sound separate spacing

/-- An element is put with the nodes that its content gathers. -/
theorem reads_element (named : ElementName name) (notRaw : rawElements.elem name = false)
    (notClosing : selfClosingElements.elem name = false) {x : Text} {r : Progress}
    (inside : Reads x (p.openElement name attributes) r)
    (frames : r.frames = (p.openElement name attributes).frames) (calm : r.Calm) :
    Reads (tagText name gap tail (attributes.map (attributeTag bare)) false ++ x ++ endTag name) p
      { p.put (.element name attributes r.gathered) with settled := r.settled } := by
  have start := reads_startTag named.toTagName spacing (sound.attributeTag bare) separate
    (named.lower.symm ▸ notRaw) (named.lower.symm ▸ notClosing) p
  rw [named.lower, sound.putAll_pair bare] at start
  rw [Progress.openElement_eq] at frames
  have closes : r.finish (Text.lower name) =
      .ok { p.put (.element name attributes r.gathered) with settled := r.settled } := by
    rw [named.lower, Progress.finish_eq (calm.not_mem notClosing), Progress.closeElement_eq frames]
    simp [Progress.put, Progress.gathered]
  exact (start.append inside).append (reads_endTag named.toTagName named.closable closes)

/-- An element that closes itself is put when its end tag stands behind it at once. -/
theorem reads_selfClosingElement (named : ElementName name)
    (closing : selfClosingElements.elem name = true) :
    Reads (tagText name gap tail (attributes.map (attributeTag bare)) false ++ endTag name) p
      (p.put (.element name attributes [])) := by
  have start := reads_selfClosingTag named.toTagName named.lower closing spacing
    (sound.attributeTag bare) separate p
  rw [sound.putAll_pair bare] at start
  refine start.append (reads_endTag named.toTagName named.closable ?_)
  rw [named.lower, Progress.finish]
  simp [Progress.put]

/-- A tag with a slash at its end is put as an element without content. -/
theorem reads_slashElement (named : TagName name) (lower : Text.lower name = name) :
    Reads (tagText name gap tail (attributes.map (attributeTag bare)) true) p
      (p.put (.element name attributes [])) := by
  have reads := reads_slashTag named spacing (sound.attributeTag bare) separate p
  rwa [lower, sound.putAll_pair bare] at reads

/-- An element with raw content is put with its content. -/
theorem reads_rawElement (raw : name ∈ rawElements) {t : Text} (content : RawContent name t)
    (calm : p.Calm) :
    Reads (tagText name gap tail (attributes.map (attributeTag bare)) false ++ t ++ endTag name) p
      (p.put (.element name attributes (if t.isEmpty then [] else [.text (textIn p.isVerbatim t)]))) := by
  intro late rest
  have read := tokensFrom_rawElement raw spacing (sound.attributeTag bare) separate content late rest
  rw [sound.putAll_pair bare] at read
  rw [show endTag name = '<' :: '/' :: name ++ ['>'] from rfl, read]
  exact readFrom_rawTokens raw calm attributes t _

end Elements

end StaticSite.Markup
