import StaticSite.Proofs.Markup.RawFixpoint
import StaticSite.Proofs.Markup.Touching

/-! # Reading what has been written

A node that keeps at its place is read, from what is written of it on one line or where white space
counts, as a node that is written the same. The reader tells apart what has been read by its texts,
so the nodes of a list are read one by one as long as no two texts are neighbours.
-/

namespace StaticSite.Markup

/-! ## Nodes that are read as they are written -/

/-- Whether what one node is written as is read as another, and that one is written the same. -/
structure ReadAs (counts : Bool) (print : Node → Text) (n m : Node) : Prop where
  reads : ∀ p : Progress, p.isVerbatim = counts → p.Calm → Reads (print n) p (p.put m)
  same : print m = print n
  counted : m.counted counts = m
  some : m ≠ .text []
  isText : m.isText = n.isText
  isVisibleText : m.isVisibleText = n.isVisibleText
  isInline : m.isInline = n.isInline
  isElement : m.isElement = n.isElement

theorem verbatimAll_eq (raw : Bool) (ns : List Node) :
    verbatimAll raw ns = ns.flatMap (verbatim raw) := by
  induction ns with
  | nil => rfl
  | cons n rest ih => rw [verbatimAll, List.flatMap_cons, ih]

theorem inlineAll_eq (ns : List Node) : inlineAll ns = ns.flatMap inline := by
  induction ns with
  | nil => rw [inlineAll]; rfl
  | cons n rest ih => rw [inlineAll, List.flatMap_cons, ih]

theorem apart_iff_map {ns : List Node} :
    Apart ns ↔ (ns.map Node.isText).IsChain fun a b => ¬ (a = true ∧ b = true) := by
  rw [Apart, List.isChain_map]

section Lists

variable {counts : Bool} {print : Node → Text} {ns ms : List Node}
variable (each : List.Forall₂ (ReadAs counts print) ns ms)
include each

theorem reads_putAll {p : Progress} (place : p.isVerbatim = counts) (calm : p.Calm) :
    Reads (ns.flatMap print) p (p.putAll ms) := by
  induction each generalizing p with
  | nil => exact .nil p
  | @cons n m ns ms first rest ih =>
    exact (first.reads p place calm).append (ih ((p.isVerbatim_put m).trans place) (calm.put m))

theorem flatMap_print : ms.flatMap print = ns.flatMap print := by
  induction each with
  | nil => rfl
  | cons first rest ih => rw [List.flatMap_cons, List.flatMap_cons, first.same, ih]

theorem map_counted : ms.map (Node.counted counts) = ms := by
  induction each with
  | nil => rfl
  | cons first rest ih => rw [List.map_cons, first.counted, ih]

theorem showsBreaks_eq : showsBreaks ms = showsBreaks ns := by
  have visible : ms.any Node.isVisibleText = ns.any Node.isVisibleText := by
    induction each with
    | nil => rfl
    | cons first rest ih => rw [List.any_cons, List.any_cons, first.isVisibleText, ih]
  have neighbours : anyNeighbours Node.isInline ms = anyNeighbours Node.isInline ns := by
    clear visible
    induction each with
    | nil => rfl
    | cons first rest ih =>
      cases rest with
      | nil => rfl
      | cons second more =>
        rw [anyNeighbours, anyNeighbours, first.isInline, second.isInline, ih]
  rw [showsBreaks, showsBreaks, visible, neighbours]

theorem tidy_of_apart (apart : Apart ns) : Tidy ms := by
  constructor
  · have same : ms.map Node.isText = ns.map Node.isText := by
      clear apart
      induction each with
      | nil => rfl
      | cons first rest ih => rw [List.map_cons, List.map_cons, first.isText, ih]
    rw [apart_iff_map, same]
    exact apart_iff_map.mp apart
  · rintro t member rfl
    clear apart
    induction each with
    | nil => cases member
    | cons first rest ih =>
      rcases List.mem_cons.mp member with here | later
      · exact first.some here.symm
      · exact ih later

end Lists

/-! ## One node -/

theorem Progress.add_eq_put {p : Progress} {node : Text → Node} (other : ∀ t, (node t).isText = false)
    (t : Text) : p.add node t = p.put (node (textIn p.isVerbatim t)) := by
  rw [Progress.add_eq, Progress.put_of_isText (other _), Progress.textHere_eq]

theorem Progress.settled_put (p : Progress) (n : Node) :
    { p.put n with settled := p.settled } = p.put n := by
  rw [← (p.put_keeps n).2]

section Elements

variable {name : Text} {attributes : Attributes} (sound : SoundAttributes attributes) {bare : Bool}
variable (separate : TagAttribute.Separate (attributes.map (attributeTag bare)))
variable {gap tail : Text} (spacing : Spacing gap tail) {p : Progress} (calm : p.Calm)
include sound separate spacing calm

/-- An element around what is read as nodes. -/
theorem reads_surround (named : ElementName name) (notRaw : rawElements.elem name = false)
    (notClosing : selfClosingElements.elem name = false) {x : Text} {ms : List Node} (tidy : Tidy ms)
    (inside : Reads x (p.openElement name attributes) ((p.openElement name attributes).putAll ms)) :
    Reads (tagText name gap tail (attributes.map (attributeTag bare)) false ++ x ++ endTag name) p
      (p.put (.element name attributes
        (ms.map (Node.counted (verbatimElements.elem name || p.isVerbatim))))) := by
  obtain ⟨frames, settled⟩ := (p.openElement name attributes).putAll_keeps ms
  have kept : ((p.openElement name attributes).putAll ms).settled = p.settled :=
    settled.trans (by rw [Progress.openElement_eq])
  have pending : (p.openElement name attributes).pending = [] := by rw [Progress.openElement_eq]
  have before : (p.openElement name attributes).nodes = [] := by rw [Progress.openElement_eq]
  have reads := reads_element sound separate spacing named notRaw notClosing inside frames
    (by rw [Progress.Calm, kept]; exact calm)
  rwa [Progress.gathered_putAll pending tidy, before, Progress.isVerbatim_openElement,
    List.reverse_nil, List.nil_append, kept, Progress.settled_put] at reads

/-- An element with raw content around that content. -/
theorem reads_rawChildren (isRaw : name ∈ rawElements) {children : List Node}
    (raw : RawChildren name children) (counted : SoundAll p.isVerbatim children) :
    Reads (tagText name gap tail (attributes.map (attributeTag bare)) false ++ rawBody children ++
      endTag name) p (p.put (.element name attributes children)) := by
  obtain ⟨content, quiet, rfl⟩ := raw
  have reads := reads_rawElement sound separate spacing isRaw quiet calm
  by_cases none : content = []
  · subst none
    exact reads
  · have some : ¬ content.isEmpty = true := by simpa using none
    rw [if_neg some] at counted reads ⊢
    rw [counted.1.2] at reads
    rwa [rawBody_text]

end Elements

/-! ## Nodes that keep -/

/-- Whether a place has a line for each node. -/
def Place.hasLines : Place → Bool
  | .lines _ => true
  | .line | .verbatim => false

/-- What an element needs so that its tags are read as they are written at a place. -/
structure SteadyElement (place : Place) (name : Text) (attributes : Attributes) : Prop where
  closable : isClosable name = true
  /-- Where white space does not count, an attribute without a value has no equals sign behind. -/
  separate : place ≠ .verbatim → TagAttribute.Separate (attributes.map (attributeTag true))

mutual

/-- Whether a node is laid out as it is once it has been laid out at a place. -/
def Node.Steady (style : Style) (place : Place) : Node → Prop
  | .element name attributes children =>
      SteadyElement place name attributes ∧
        (name = "style" → place.hasLines = true → SteadySheet style (rawBody children)) ∧
          ∀ deeper ∈ place.inside? name children, SteadyAll style deeper children
  | .doctype t => place ≠ .verbatim ∧
      dropDoctypeKeyword (dropDoctypeKeyword (collapse t).trim) = dropDoctypeKeyword (collapse t).trim
  | .declaration t => '>' ∉ t
  | _ => True

/-- Whether all nodes of a list are laid out as they are once they have been laid out. -/
def SteadyAll (style : Style) (place : Place) : List Node → Prop
  | [] => True
  | node :: rest => node.Steady style place ∧ SteadyAll style place rest

end

section Decidable

theorem steadyElement_iff {place : Place} {name : Text} {attributes : Attributes} :
    SteadyElement place name attributes ↔ isClosable name = true ∧
      (place ≠ .verbatim → TagAttribute.Separate (attributes.map (attributeTag true))) :=
  ⟨fun e => ⟨e.closable, e.separate⟩, fun ⟨a, b⟩ => ⟨a, b⟩⟩

instance (place : Place) (name : Text) (attributes : Attributes) :
    Decidable (SteadyElement place name attributes) := decidable_of_iff _ steadyElement_iff.symm

mutual

/-- Decides whether a node keeps at a place. -/
def Node.decideSteady (style : Style) (place : Place) : (n : Node) → Decidable (n.Steady style place)
  | .element name attributes children =>
      have : DecidablePred fun deeper => SteadyAll style deeper children := fun deeper =>
        decideSteadyAll style deeper children
      inferInstanceAs (Decidable (SteadyElement place name attributes ∧
        (name = "style" → place.hasLines = true → SteadySheet style (rawBody children)) ∧
          ∀ deeper ∈ place.inside? name children, SteadyAll style deeper children))
  | .doctype t => inferInstanceAs (Decidable (place ≠ .verbatim ∧
      dropDoctypeKeyword (dropDoctypeKeyword (collapse t).trim) = dropDoctypeKeyword (collapse t).trim))
  | .declaration t => inferInstanceAs (Decidable ('>' ∉ t))
  | .text _ | .comment _ | .data _ | .instruction _ => .isTrue trivial

/-- Decides whether nodes keep at a place. -/
def decideSteadyAll (style : Style) (place : Place) : (ns : List Node) → Decidable (SteadyAll style place ns)
  | [] => .isTrue trivial
  | n :: rest =>
      have := n.decideSteady style place
      have := decideSteadyAll style place rest
      inferInstanceAs (Decidable (n.Steady style place ∧ SteadyAll style place rest))

end

instance (style : Style) (place : Place) (ns : List Node) : Decidable (SteadyAll style place ns) :=
  decideSteadyAll style place ns

end Decidable

/-! ## Where white space counts -/

theorem readAs_text {counts : Bool} {t : Text} (some : t ≠ []) (counted : textIn counts t = t) :
    ReadAs counts (verbatim false) (.text t) (.text t) where
  reads p _ _ := reads_replaceEach readsBack_contentReference t p
  same := rfl
  counted := congrArg Node.text counted
  some := by simpa using some
  isText := rfl
  isVisibleText := rfl
  isInline := rfl
  isElement := rfl

/-- Whether a node is neither a text nor an element. -/
def Node.isNote (n : Node) : Prop := n.isText = false ∧ n.isElement = false

theorem Node.isNote.hidden : ∀ {n : Node}, n.isNote → n.isVisibleText = false ∧ n.isInline = false
  | .text _, note => by cases note.1
  | .element _ _ _, note => by cases note.2
  | .comment _, _ | .doctype _, _ | .data _, _ | .declaration _, _ | .instruction _, _ => ⟨rfl, rfl⟩

theorem ReadAs.of_note {counts : Bool} {print : Node → Text} {n m : Node} (first : n.isNote)
    (second : m.isNote)
    (reads : ∀ p : Progress, p.isVerbatim = counts → p.Calm → Reads (print n) p (p.put m))
    (same : print m = print n) : ReadAs counts print n m := by
  refine ⟨reads, same, Node.counted_of_isText second.1 counts, ?_, ?_, ?_, ?_, ?_⟩
  · rintro rfl
    cases second.1
  · rw [first.1, second.1]
  · rw [first.hidden.1, second.hidden.1]
  · rw [first.hidden.2, second.hidden.2]
  · rw [first.2, second.2]

/-- A construct that holds one text is read back, with that text as it counts at the place. -/
theorem readAs_note {counts : Bool} {print : Node → Text} {n : Node} (node : Text → Node) {t : Text}
    (first : n.isNote) (second : ∀ t, (node t).isNote)
    (reads : ∀ p, Reads (print n) p (p.add node t)) (same : print (node (textIn counts t)) = print n) :
    ReadAs counts print n (node (textIn counts t)) :=
  .of_note first (second _) (fun p place _ => by
    rw [← place, ← Progress.add_eq_put fun t => (second t).1]
    exact reads p) same

theorem exists_readAs_comment {counts : Bool} {t : Text} (content : CommentContent t)
    (counted : textIn counts t = t) : ∃ u, ReadAs counts (verbatim false) (.comment t) (.comment u) :=
  ⟨_, readAs_note .comment ⟨rfl, rfl⟩ (fun _ => ⟨rfl, rfl⟩) (reads_comment content) (by rw [counted])⟩

theorem exists_readAs_instruction {counts : Bool} {t : Text} (inside : '>' ∉ t)
    (counted : textIn counts t = t) : ∃ u, ReadAs counts (verbatim false) (.instruction t) (.instruction u) :=
  ⟨_, readAs_note .instruction ⟨rfl, rfl⟩ (fun _ => ⟨rfl, rfl⟩) (reads_instruction inside) (by rw [counted])⟩

theorem exists_readAs_data {counts : Bool} {t : Text} (content : DataContent t)
    (counted : textIn counts t = t) : ∃ u, ReadAs counts (verbatim false) (.data t) (.data u) :=
  ⟨_, readAs_note .data ⟨rfl, rfl⟩ (fun _ => ⟨rfl, rfl⟩) (reads_data content) (by rw [counted])⟩

/-- A section in square brackets is written, and read, as an instruction. -/
theorem exists_readAs_declaration {counts : Bool} {t : Text} (inside : '>' ∉ t) :
    ∃ u, ReadAs counts (verbatim false) (.declaration t) (.instruction u) := by
  have text : verbatim false (.declaration t) = "<?" ++ (t ++ ['?']) ++ ">" := by
    rw [verbatim_declaration]
    simp
  have counted := textIn_of_exists (t := t ++ ['?']) ⟨'?', by simp, by decide⟩ counts
  refine ⟨_, readAs_note .instruction (t := t ++ ['?']) ⟨rfl, rfl⟩ (fun _ => ⟨rfl, rfl⟩)
    (fun p => ?_) (by rw [counted, text]; rfl)⟩
  rw [text]
  exact reads_instruction (by simpa using inside) p

theorem ReadAs.of_element {counts : Bool} {print : Node → Text} {name : Text}
    {attributes others : Attributes} {children inner : List Node}
    (reads : ∀ p : Progress, p.isVerbatim = counts → p.Calm →
      Reads (print (.element name attributes children)) p (p.put (.element name others inner)))
    (same : print (.element name others inner) = print (.element name attributes children)) :
    ReadAs counts print (.element name attributes children) (.element name others inner) :=
  ⟨reads, same, rfl, by simp, rfl, rfl, rfl, rfl⟩

theorem SoundName.element {name : Text} (named : SoundName name) (closable : isClosable name = true) :
    ElementName name := ⟨named.toTagName, named.lower, closable⟩

theorem isEmpty_of_forall₂ {α β : Type} {r : α → β → Prop} {as : List α} {bs : List β}
    (each : List.Forall₂ r as bs) : bs.isEmpty = as.isEmpty := by
  cases each <;> rfl

section Elements

variable {name : Text} {attributes : Attributes} {children : List Node}
variable (named : SoundName name) (ordered : SoundAttributes attributes)
include named ordered

/-- The element's tags are read with the attributes in the order that they are written in. -/
theorem exists_readAs_verbatim_element (apart : Apart children)
    (raw : name ∈ rawElements → RawChildren name children)
    (closing : name ∈ selfClosingElements → children = []) (sound : SoundAll true children)
    (element : SteadyElement .verbatim name attributes)
    (inside : ∃ ms, List.Forall₂ (ReadAs true (verbatim false)) children ms) :
    ∃ m, ReadAs true (verbatim false) (.element name attributes children) m := by
  have order := verbatimOrder_verbatimOrder ordered name
  have kept := ordered.verbatimOrder name
  have separate := separate_attributeTag (verbatimOrder name attributes)
  have whole := named.element element.closable
  by_cases empty : (children.isEmpty && selfClosingElements.elem name) = true
  · have none : children = [] := by simpa using (Bool.and_eq_true_iff.mp empty).1
    subst none
    refine ⟨.element name (verbatimOrder name attributes) [], .of_element (fun p _ _ => ?_) ?_⟩
    · rw [verbatim_element, if_pos empty]
      exact reads_slashElement kept separate spacing_space.1 named.toTagName named.lower
    · rw [verbatim_element, verbatim_element, order]
  have notClosing : selfClosingElements.elem name = false := by
    by_contra closes
    have closes : selfClosingElements.elem name = true := by simpa using closes
    rw [closing (List.elem_iff.mp closes), closes] at empty
    exact empty rfl
  by_cases isRaw : name ∈ rawElements
  · refine ⟨.element name (verbatimOrder name attributes) children,
      .of_element (fun p place calm => ?_) ?_⟩
    · rw [verbatim_element, if_neg empty, List.elem_iff.mpr isRaw]
      exact reads_rawChildren kept separate spacing_space.1 calm isRaw (raw isRaw) (place ▸ sound)
    · rw [verbatim_element, verbatim_element, order]
  · have notRaw : rawElements.elem name = false := by simpa using isRaw
    obtain ⟨ms, each⟩ := inside
    refine ⟨.element name (verbatimOrder name attributes) ms, .of_element (fun p place calm => ?_) ?_⟩
    · have opened : (p.openElement name (verbatimOrder name attributes)).isVerbatim = true := by
        rw [Progress.isVerbatim_openElement, place, Bool.or_true]
      have reads := reads_surround kept separate spacing_space.1 calm whole notRaw notClosing
        (tidy_of_apart each apart) (reads_putAll each opened (calm.openElement name _))
      rw [place, Bool.or_true, map_counted each] at reads
      rw [verbatim_element, if_neg empty, notRaw, verbatimAll_eq]
      exact reads
    · rw [verbatim_element, verbatim_element, order, isEmpty_of_forall₂ each, notRaw, verbatimAll_eq,
        verbatimAll_eq, flatMap_print each]

end Elements

mutual

/-- Where white space counts, a node is read as one that is written the same. -/
theorem exists_readAs_verbatim {style : Style} : ∀ {n : Node}, n.Sound true →
    n.Steady style .verbatim → ∃ m, ReadAs true (verbatim false) n m
  | .text t, sound, _ => ⟨_, readAs_text sound.1 sound.2⟩
  | .comment t, sound, _ => (exists_readAs_comment sound.1 sound.2).imp' _ fun _ => id
  | .doctype t, _, steady => absurd rfl steady.1
  | .data t, sound, _ => (exists_readAs_data sound.1 sound.2).imp' _ fun _ => id
  | .declaration t, _, steady => (exists_readAs_declaration steady).imp' _ fun _ => id
  | .instruction t, sound, _ => (exists_readAs_instruction sound.1 sound.2).imp' _ fun _ => id
  | .element name attributes children, sound, steady => by
    obtain ⟨⟨named, ordered⟩, apart, ⟨raw, closing⟩, below⟩ := sound
    obtain ⟨element, -, inside⟩ := steady
    rw [Bool.or_true] at below
    exact exists_readAs_verbatim_element named ordered apart raw closing below element
      (exists_readAs_verbatimAll below (inside _ rfl))

theorem exists_readAs_verbatimAll {style : Style} : ∀ {ns : List Node}, SoundAll true ns →
    SteadyAll style .verbatim ns → ∃ ms, List.Forall₂ (ReadAs true (verbatim false)) ns ms
  | [], _, _ => ⟨[], .nil⟩
  | n :: rest, sound, steady => by
    obtain ⟨m, first⟩ := exists_readAs_verbatim sound.1 steady.1
    obtain ⟨ms, others⟩ := exists_readAs_verbatimAll sound.2 steady.2
    exact ⟨m :: ms, .cons first others⟩

end

/-! ## On one line -/

theorem squeezed_collapse (t : Text) : Text.Squeezed isMarkupBlank (collapse t) := Text.squeezed_squeeze t

theorem collapse_of_infix {s t : Text} (inside : s <:+: collapse t) : collapse s = s :=
  Text.squeeze_of_squeezed ((squeezed_collapse t).of_part inside)

theorem all_collapse (t : Text) : (collapse t).all isMarkupBlank = t.all isMarkupBlank := by
  rw [Bool.eq_iff_iff, List.all_eq_true, List.all_eq_true]
  constructor
  · intro all c member
    by_contra visible
    have stays : isMarkupBlank c = false := by simpa using visible
    have other : c ≠ ' ' := by
      rintro rfl
      exact visible rfl
    exact visible (all c ((Text.mem_squeeze_iff stays other t).mpr member))
  · intro all c member
    rcases Text.mem_of_mem_squeeze member with here | rfl
    · exact all c here
    · rfl

theorem textIn_collapse {t : Text} (some : t ≠ []) : textIn false (collapse t) = collapse t := by
  by_cases blank : t.all isMarkupBlank = true
  · have space : collapse t = [' '] :=
      (Text.squeeze_of_all (List.all_eq_true.mp blank)).trans (if_neg (by simpa using some))
    rw [space]
    rfl
  · rw [← all_collapse] at blank
    exact textIn_of_exists (by simpa using blank) false

theorem inline_text (t : Text) : inline (.text t) = Text.escapeContent (collapse t) := by rw [inline]

theorem readAs_inline_text {t : Text} (some : t ≠ []) :
    ReadAs false inline (.text t) (.text (collapse t)) where
  reads p _ _ := by
    rw [inline_text]
    exact reads_replaceEach readsBack_contentReference _ p
  same := by rw [inline_text, inline_text, collapse_of_infix (List.infix_refl _)]
  counted := congrArg Node.text (textIn_collapse some)
  some none := Text.squeeze_ne_nil some (Node.text.inj none)
  isText := rfl
  isVisibleText := by rw [Node.isVisibleText, Node.isVisibleText, all_collapse]
  isInline := rfl
  isElement := rfl

theorem inline_comment (t : Text) : inline (.comment t) = commentText t := by rw [inline]

theorem inline_doctype (t : Text) : inline (.doctype t) = doctypeText t := by rw [inline]

theorem textIn_of_mem {t : Text} {c : Char} (member : c ∈ t) (visible : isBlank c = false)
    (counts : Bool) : textIn counts t = t := by
  refine textIn_of_exists ⟨c, member, ?_⟩ counts
  by_contra blank
  rw [isBlank_of_isMarkupBlank (by simpa using blank)] at visible
  cases visible

/-- Whether a node is a comment or a declaration that is written the same everywhere. -/
theorem ReadAs.inline_of_verbatim {n m : Node} (first : inline n = verbatim false n)
    (second : inline m = verbatim false m) (read : ReadAs false (verbatim false) n m) :
    ReadAs false inline n m :=
  { read with
    reads := fun p place calm => by
      rw [first]
      exact read.reads p place calm
    same := by rw [first, second, read.same] }

theorem exists_readAs_inline_comment {t : Text} (content : CommentContent t) :
    ∃ m, ReadAs false inline (.comment t) m := by
  by_cases none : t.trim = []
  · have text : inline (.comment t) = "<!--" ++ ([] : Text) ++ "-->" := by
      rw [inline_comment, commentText, none]
      rfl
    refine ⟨_, readAs_note .comment (t := []) ⟨rfl, rfl⟩ (fun _ => ⟨rfl, rfl⟩) (fun p => ?_) ?_⟩
    · rw [text]
      exact reads_comment (commentContent_of_not_mem (by simp)) p
    · rw [inline_comment, inline_comment, commentText, commentText, none]
      rfl
  · have text : inline (.comment t) = "<!--" ++ (' ' :: t.trim ++ [' ']) ++ "-->" := by
      rw [inline_comment, commentText, if_neg (by simpa using none)]
      simp
    have counted : textIn false (' ' :: t.trim ++ [' ']) = ' ' :: t.trim ++ [' '] := by
      obtain ⟨c, rest, trimmed⟩ := List.exists_cons_of_ne_nil none
      exact textIn_of_mem (by simp [trimmed]) (Text.head?_trim t c (by rw [trimmed]; rfl)) false
    have trimmed : Text.trim (' ' :: t.trim ++ [' ']) = t.trim := by
      rw [Text.trim_append_blanks (by decide), Text.trim_space_cons, Text.trim_trim]
    refine ⟨_, readAs_note .comment (t := ' ' :: t.trim ++ [' ']) ⟨rfl, rfl⟩
      (fun _ => ⟨rfl, rfl⟩) (fun p => ?_) ?_⟩
    · rw [text]
      exact reads_comment (content.of_infix (trim_isInfix t)).spaced p
    · rw [counted, inline_comment, inline_comment, commentText, commentText, trimmed]

/-- A document type without blanks at its ends. -/
theorem trim_dropDoctypeKeyword (t : Text) :
    (dropDoctypeKeyword t.trim).trim = dropDoctypeKeyword t.trim := by
  refine Text.trim_of_ends ?_ fun c last => Text.getLast?_trim t c
    (mem_getLast?_of_ending (dropDoctypeKeyword_suffix _) c last)
  unfold dropDoctypeKeyword
  split
  · exact head?_dropWhile _
  · exact Text.head?_trim t

theorem exists_readAs_inline_doctype {t : Text} (inside : '>' ∉ t)
    (steady : dropDoctypeKeyword (dropDoctypeKeyword (collapse t).trim) =
      dropDoctypeKeyword (collapse t).trim) :
    ∃ m, ReadAs false inline (.doctype t) m := by
  have quiet := not_mem_doctype inside
  have ends := trim_dropDoctypeKeyword (collapse t)
  have part : dropDoctypeKeyword (collapse t).trim <:+: collapse t :=
    (dropDoctypeKeyword_suffix _).isInfix.trans (trim_isInfix _)
  have text : inline (.doctype t) = "<!DOCTYPE " ++ dropDoctypeKeyword (collapse t).trim ++ ">" :=
    inline_doctype t
  generalize dropDoctypeKeyword (collapse t).trim = kept at *
  have again : dropDoctypeKeyword (collapse (textIn false kept)).trim = kept := by
    by_cases none : kept = []
    · subst none
      decide
    · obtain ⟨c, rest, whole⟩ := List.exists_cons_of_ne_nil none
      have visible := Text.head?_trim kept c (by rw [ends, whole]; rfl)
      rw [textIn_of_mem (by simp [whole]) visible, collapse_of_infix part, ends, steady]
  refine ⟨_, readAs_note .doctype (t := kept) ⟨rfl, rfl⟩ (fun _ => ⟨rfl, rfl⟩)
    (fun p => ?_) ?_⟩
  · rw [text]
    exact reads_doctype quiet p
  · have written : doctypeText (textIn false kept) = "<!DOCTYPE " ++ kept ++ ">" := by
      unfold doctypeText
      rw [again]
    exact (inline_doctype _).trans (written.trans text.symm)

/-- What has no layout of its own on a line is written as it is. -/
theorem inline_eq_verbatim : ∀ {n : Node}, (∃ t, n = .data t ∨ n = .declaration t ∨ n = .instruction t) →
    inline n = verbatim false n := by
  rintro n ⟨t, rfl | rfl | rfl⟩
  all_goals
    rw [inline]
    all_goals simp

/-- A node that is no element is read on a line as one that is written the same. -/
theorem exists_readAs_inline_leaf {style : Style} {place : Place} :
    ∀ {n : Node}, n.isElement = false → n.Sound false → n.Steady style place →
      ∃ m, ReadAs false inline n m
  | .text t, _, sound, _ => ⟨_, readAs_inline_text sound.1⟩
  | .comment t, _, sound, _ => exists_readAs_inline_comment sound.1
  | .doctype t, _, sound, steady => exists_readAs_inline_doctype sound.1 steady.2
  | .data t, _, sound, _ => (exists_readAs_data sound.1 sound.2).imp' _ fun _ =>
    .inline_of_verbatim (inline_eq_verbatim ⟨_, .inl rfl⟩) (inline_eq_verbatim ⟨_, .inl rfl⟩)
  | .declaration t, _, _, steady => (exists_readAs_declaration steady).imp' _ fun _ =>
    .inline_of_verbatim (inline_eq_verbatim ⟨_, .inr (.inl rfl)⟩)
      (inline_eq_verbatim ⟨_, .inr (.inr rfl)⟩)
  | .instruction t, _, sound, _ => (exists_readAs_instruction sound.1 sound.2).imp' _ fun _ =>
    .inline_of_verbatim (inline_eq_verbatim ⟨_, .inr (.inr rfl)⟩)
      (inline_eq_verbatim ⟨_, .inr (.inr rfl)⟩)
  | .element _ _ _, wrong, _, _ => by cases wrong

theorem inline_element (name : Text) (attributes : Attributes) (children : List Node) :
    inline (.element name attributes children) =
      if voidElements.elem name then startTag name attributes " />"
      else startTag name attributes ">" ++
        (if verbatimElements.elem name then verbatimAll false children
          else if rawElements.elem name then rawBody children else inlineAll children) ++
            endTag name := by rw [inline]

theorem notRaw_of_verbatim : ∀ name ∈ verbatimElements, rawElements.elem name = false ∧
    selfClosingElements.elem name = false := by decide

theorem readAs_void {name : Text} {attributes : Attributes} {children : List Node}
    (named : SoundName name) (ordered : SoundAttributes attributes) (void : voidElements.elem name = true)
    (separate : TagAttribute.Separate (attributes.map (attributeTag true))) :
    ReadAs false inline (.element name attributes children) (.element name attributes []) := by
  refine .of_element (fun p _ _ => ?_) (by rw [inline_element, inline_element, if_pos void, if_pos void])
  rw [inline_element, if_pos void, (startTag_eq ..).2]
  exact reads_slashElement ordered separate spacing_space.2 named.toTagName named.lower

section Content

variable {name : Text} {attributes : Attributes} (whole : ElementName name)
variable (ordered : SoundAttributes attributes)
variable (separate : TagAttribute.Separate (attributes.map (attributeTag true)))
variable {gap tail : Text} (spacing : Spacing gap tail) {p : Progress}
variable (calm : p.Calm)
include whole ordered separate spacing calm

/-- An element whose white space counts is read back. -/
theorem reads_keptElement (keeps : verbatimElements.elem name = true) {children ms : List Node}
    (apart : Apart children) (each : List.Forall₂ (ReadAs true (verbatim false)) children ms) :
    Reads (tagText name gap tail (attributes.map (attributeTag true)) false ++
      verbatimAll false children ++ endTag name) p (p.put (.element name attributes ms)) := by
  obtain ⟨notRaw, notClosing⟩ := notRaw_of_verbatim name (List.elem_iff.mp keeps)
  have opened : (p.openElement name attributes).isVerbatim = true := by
    rw [Progress.isVerbatim_openElement, keeps, Bool.true_or]
  have reads := reads_surround ordered separate spacing calm whole notRaw notClosing
    (tidy_of_apart each apart) (reads_putAll each opened (calm.openElement name attributes))
  rw [keeps, Bool.true_or, map_counted each] at reads
  rw [verbatimAll_eq]
  exact reads

variable (place : p.isVerbatim = false)
include place

/-- An element around what is read as nodes where white space does not count. -/
theorem reads_innerElement (plain : verbatimElements.elem name = false)
    (notRaw : rawElements.elem name = false) {x : Text} {ms : List Node}
    (closing : name ∈ selfClosingElements → x = [] ∧ ms = []) (tidy : Tidy ms)
    (inside : ∀ q : Progress, q.isVerbatim = false → q.Calm → Reads x q (q.putAll ms)) :
    Reads (tagText name gap tail (attributes.map (attributeTag true)) false ++ x ++ endTag name) p
      (p.put (.element name attributes (ms.map (Node.counted false)))) := by
  by_cases closes : selfClosingElements.elem name = true
  · obtain ⟨rfl, rfl⟩ := closing (List.elem_iff.mp closes)
    rw [List.append_nil]
    exact reads_selfClosingElement ordered separate spacing whole closes
  · have opened : (p.openElement name attributes).isVerbatim = false := by
      rw [Progress.isVerbatim_openElement, plain, place, Bool.or_false]
    have reads := reads_surround ordered separate spacing calm whole notRaw (by simpa using closes) tidy
      (inside _ opened (calm.openElement name attributes))
    rwa [plain, place, Bool.or_false] at reads

end Content

section Elements

variable {name : Text} {attributes : Attributes} {children : List Node}
variable (named : SoundName name) (ordered : SoundAttributes attributes)
include named ordered

/-- On a line, an element is read back with what its content is read as. -/
theorem exists_readAs_inline_element (apart : Apart children)
    (raw : name ∈ rawElements → RawChildren name children ∧ SoundAll false children)
    (closing : name ∈ selfClosingElements → children = [])
    {place : Place} (other : place ≠ .verbatim) (element : SteadyElement place name attributes)
    (kept : voidElements.elem name = false → verbatimElements.elem name = true →
      ∃ ms, List.Forall₂ (ReadAs true (verbatim false)) children ms)
    (inside : voidElements.elem name = false → verbatimElements.elem name = false →
      ∃ ms, List.Forall₂ (ReadAs false inline) children ms) :
    ∃ m, ReadAs false inline (.element name attributes children) m := by
  have separate := element.separate other
  have whole := named.element element.closable
  by_cases void : voidElements.elem name = true
  · exact ⟨_, readAs_void named ordered void separate⟩
  have ends : voidElements.elem name = false := by simpa using void
  have tag := (startTag_eq name attributes).1
  by_cases counts : verbatimElements.elem name = true
  · obtain ⟨ms, each⟩ := kept ends counts
    refine ⟨.element name attributes ms, .of_element (fun p _ calm => ?_) ?_⟩
    · rw [inline_element, if_neg void, if_pos counts, tag]
      exact reads_keptElement whole ordered separate spacing_space.1 calm counts apart each
    · rw [inline_element, inline_element, if_neg void, if_neg void, if_pos counts, if_pos counts,
        verbatimAll_eq, verbatimAll_eq, flatMap_print each]
  have plain : verbatimElements.elem name = false := by simpa using counts
  by_cases isRaw : rawElements.elem name = true
  · have member := List.elem_iff.mp isRaw
    obtain ⟨content, sound⟩ := raw member
    refine ⟨.element name attributes children, .of_element (fun p place calm => ?_) rfl⟩
    rw [inline_element, if_neg void, if_neg counts, if_pos isRaw, tag]
    exact reads_rawChildren ordered separate spacing_space.1 calm member content (place ▸ sound)
  · obtain ⟨ms, each⟩ := inside ends plain
    refine ⟨.element name attributes ms, .of_element (fun p place calm => ?_) ?_⟩
    · have empty (closes : name ∈ selfClosingElements) : inlineAll children = [] ∧ ms = [] := by
        obtain rfl := closing closes
        cases each
        exact ⟨by rw [inlineAll], rfl⟩
      have reads := reads_innerElement whole ordered separate spacing_space.1 calm place plain
        (by simpa using isRaw) empty (tidy_of_apart each apart) fun q place calm => by
          rw [inlineAll_eq]
          exact reads_putAll each place calm
      rw [map_counted each] at reads
      rw [inline_element, if_neg void, if_neg counts, if_neg isRaw, tag]
      exact reads
    · rw [inline_element, inline_element, if_neg void, if_neg void, if_neg counts, if_neg counts,
        if_neg isRaw, if_neg isRaw, inlineAll_eq, inlineAll_eq, flatMap_print each]

end Elements

mutual

/-- On a line, a node is read as one that is written the same. -/
theorem exists_readAs_inline {style : Style} : ∀ {n : Node}, n.Sound false → n.Steady style .line →
    ∃ m, ReadAs false inline n m
  | .element name attributes children, sound, steady => by
    obtain ⟨⟨named, ordered⟩, apart, ⟨raw, closing⟩, below⟩ := sound
    obtain ⟨element, -, inside⟩ := steady
    refine exists_readAs_inline_element named ordered apart (fun isRaw => ⟨raw isRaw, ?_⟩) closing
      (by simp) element (fun ends counts => ?_) fun ends plain => ?_
    · rwa [(notVerbatim_of_mem_rawElements isRaw).1] at below
    · rw [counts, Bool.true_or] at below
      exact exists_readAs_verbatimAll below (inside .verbatim (by rw [Place.inside?, ends, counts]; rfl))
    · rw [plain, Bool.or_false] at below
      exact exists_readAs_inlineAll below (inside .line (by rw [Place.inside?, ends, plain]; rfl))
  | .text t, sound, steady | .comment t, sound, steady | .doctype t, sound, steady
  | .data t, sound, steady | .declaration t, sound, steady | .instruction t, sound, steady =>
    exists_readAs_inline_leaf rfl sound steady

theorem exists_readAs_inlineAll {style : Style} : ∀ {ns : List Node}, SoundAll false ns →
    SteadyAll style .line ns → ∃ ms, List.Forall₂ (ReadAs false inline) ns ms
  | [], _, _ => ⟨[], .nil⟩
  | n :: rest, sound, steady => by
    obtain ⟨m, first⟩ := exists_readAs_inline sound.1 steady.1
    obtain ⟨ms, others⟩ := exists_readAs_inlineAll sound.2 steady.2
    exact ⟨m :: ms, .cons first others⟩

end

end StaticSite.Markup
