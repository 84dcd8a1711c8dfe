import Mathlib.Data.List.Forall2
import StaticSite.Markup.Printer
import StaticSite.Proofs.Markup.Reads

/-! # Outlines

The outline of markup is the forest of its elements that have an id. A `Fragment` is a piece of
markup that is complete: wherever it stands, it is read as nodes with the same outline.
-/

namespace StaticSite.Markup

/-- An element with an id, and those inside it. -/
inductive Outline
  | element (id : Text) (children : List Outline)
  deriving Repr

/-- The outline of an element with some attributes around an outline. -/
def around (attributes : Attributes) (os : List Outline) : List Outline :=
  match attributeOf attributes "id" with
  | some id => [.element id os]
  | none => os

/-- Attributes whose class starts with their id. -/
def Classes (attributes : Attributes) : Prop :=
  ∀ id ∈ attributeOf attributes "id", ∃ classes ∈ attributeOf attributes "class",
    "c-".toList ++ id <+: classes

mutual

/-- The elements with an id in a node. -/
def Node.outline : Node → List Outline
  | .element _ attributes children => around attributes (outlineAll children)
  | _ => []

/-- The elements with an id in nodes. -/
def outlineAll : List Node → List Outline
  | [] => []
  | node :: rest => node.outline ++ outlineAll rest

end

mutual

/-- Whether every element with an id in a node has a class that starts with that id. -/
def Node.Classed : Node → Prop
  | .element _ attributes children => Classes attributes ∧ ClassedAll children
  | _ => True

/-- Whether every element with an id in nodes has a class that starts with that id. -/
def ClassedAll : List Node → Prop
  | [] => True
  | node :: rest => node.Classed ∧ ClassedAll rest

end

theorem outlineAll_append (ns ms : List Node) :
    outlineAll (ns ++ ms) = outlineAll ns ++ outlineAll ms := by
  induction ns with
  | nil => rfl
  | cons n rest ih => simp [outlineAll, ih]

theorem classedAll_iff {ns : List Node} : ClassedAll ns ↔ ∀ n ∈ ns, n.Classed := by
  induction ns with
  | nil => simp [ClassedAll]
  | cons n rest ih => simp [ClassedAll, ih]

theorem classedAll_append {ns ms : List Node} :
    ClassedAll (ns ++ ms) ↔ ClassedAll ns ∧ ClassedAll ms := by
  simp only [classedAll_iff, List.mem_append, or_imp, forall_and]

theorem classedAll_reverse {ns : List Node} : ClassedAll ns.reverse ↔ ClassedAll ns := by
  simp [classedAll_iff]

/-- A piece of markup that is read as nodes with an outline, wherever it stands. -/
def Fragment (x : Text) (os : List Outline) : Prop :=
  ∀ p : Progress, p.settled = [] → ∃ q added, Reads x p q ∧ q.frames = p.frames ∧ q.settled = [] ∧
    q.nodes = added ++ p.nodes ∧ outlineAll added.reverse = os ∧ ClassedAll added

namespace Fragment

theorem of_push {x t : Text} (reads : ∀ p, Reads x p (p.push t)) : Fragment x [] :=
  fun p none => ⟨p.push t, [], reads p, rfl, none, rfl, rfl, trivial⟩

theorem plain {x : Text} (plain : ∀ c ∈ x, isPlain c = true) : Fragment x [] :=
  of_push (reads_plain plain)

theorem escaped (t : Text) : Fragment (Text.escapeAttribute t) [] :=
  of_push (reads_replaceEach readsBack_attributeReference t)

theorem append {x y : Text} {os us : List Outline} (first : Fragment x os) (second : Fragment y us) :
    Fragment (x ++ y) (os ++ us) := by
  intro p none
  obtain ⟨q, added, reads, frames, settled, nodes, outline, classed⟩ := first p none
  obtain ⟨r, more, reads', frames', settled', nodes', outline', classed'⟩ := second q settled
  refine ⟨r, more ++ added, reads.append reads', frames'.trans frames, settled', ?_, ?_, ?_⟩
  · rw [nodes', nodes, List.append_assoc]
  · rw [List.reverse_append, outlineAll_append, outline, outline']
  · exact classedAll_append.mpr ⟨classed', classed⟩

theorem outlineAll_pendingNodes (p : Progress) : outlineAll p.pendingNodes.reverse = [] := by
  unfold Progress.pendingNodes
  split <;> rfl

theorem classedAll_pendingNodes (p : Progress) : ClassedAll p.pendingNodes := by
  unfold Progress.pendingNodes
  split
  · trivial
  · exact classedAll_iff.mpr (by simp [Node.Classed])

section Elements

variable {name : Text} (named : ElementName name) {gap tail : Text} (spacing : Spacing gap tail)
variable {as : List TagAttribute} (sound : ∀ a ∈ as, a.Sound)
variable (separate : TagAttribute.Separate as)
variable (classes : Classes (Fields.putAll [] (as.map TagAttribute.pair)))
include named spacing sound separate classes

/-- An element around a fragment. -/
theorem element (notRaw : rawElements.elem name = false)
    (notClosing : selfClosingElements.elem name = false) {inner : Text} {os : List Outline}
    (content : Fragment inner os) :
    Fragment (tagText name gap tail as false ++ inner ++ ('<' :: '/' :: name ++ ['>']))
      (around (Fields.putAll [] (as.map TagAttribute.pair)) os) := by
  intro p none
  have opening := reads_startTag named.toTagName spacing sound separate (named.lower.symm ▸ notRaw)
    (named.lower.symm ▸ notClosing) p
  rw [named.lower] at opening
  obtain ⟨q, added, reads, frames, settled, nodes, outline, classed⟩ :=
    content (p.openElement name (Fields.putAll [] (as.map TagAttribute.pair)))
      (by rw [Progress.openElement_eq]; exact none)
  rw [Progress.openElement_eq] at frames nodes
  have closing := reads_endTag named.toTagName named.closable
    (named.lower.symm ▸ (Progress.finish_eq (by simp [settled])).trans (Progress.closeElement_eq frames))
  refine ⟨_, _, (opening.append reads).append closing, rfl, settled,
    (List.append_assoc [Node.element _ _ _] p.pendingNodes p.nodes).symm, ?_, ?_⟩
  · rw [List.reverse_append, outlineAll_append, outlineAll_pendingNodes]
    simp [outlineAll, Node.outline, nodes, outlineAll_append, outline, outlineAll_pendingNodes]
  · refine classedAll_append.mpr ⟨⟨⟨classes, ?_⟩, trivial⟩, classedAll_pendingNodes p⟩
    rw [nodes, classedAll_reverse]
    exact classedAll_append.mpr ⟨classedAll_pendingNodes q,
      classedAll_append.mpr ⟨classed, trivial⟩⟩

/-- A tag with a slash at its end. -/
theorem slash : Fragment (tagText name gap tail as true)
    (around (Fields.putAll [] (as.map TagAttribute.pair)) []) := by
  intro p none
  have closing := reads_slashTag named.toTagName spacing sound separate p
  rw [named.lower] at closing
  refine ⟨_, _, closing, rfl, none,
    (List.append_assoc [Node.element _ _ _] p.pendingNodes p.nodes).symm, ?_, ?_⟩
  · rw [List.reverse_append, outlineAll_append, outlineAll_pendingNodes]
    simp [outlineAll, Node.outline]
  · exact classedAll_append.mpr ⟨⟨⟨classes, trivial⟩, trivial⟩, classedAll_pendingNodes p⟩

end Elements

/-- Fragments with plain text between them. -/
theorem joinWith {separator : Text} (between : Fragment separator []) {pieces : List Text}
    {outlines : List (List Outline)} (fragments : List.Forall₂ Fragment pieces outlines) :
    Fragment (Text.joinWith separator pieces) outlines.flatten := by
  induction fragments with
  | nil => exact plain (by simp [Text.joinWith])
  | cons first later ih =>
    cases later with
    | nil => simpa [Text.joinWith] using first
    | cons second more => simpa [Text.joinWith] using first.append (between.append ih)

theorem joinWith_plain {separator : Text} (between : Fragment separator []) {pieces : List Text}
    (fragments : ∀ x ∈ pieces, Fragment x []) : Fragment (Text.joinWith separator pieces) [] := by
  have each : List.Forall₂ Fragment pieces (pieces.map fun _ => []) :=
    List.forall₂_map_right_iff.mpr (List.forall₂_same.mpr fragments)
  simpa using between.joinWith each

/-- Markup that is a fragment is read as nodes with its outline. -/
theorem exists_read {x : Text} {os : List Outline} (fragment : Fragment x os) :
    ∃ nodes, read x = .ok nodes ∧ outlineAll nodes = os ∧ ClassedAll nodes := by
  obtain ⟨q, added, reads, frames, -, nodes, outline, classed⟩ := fragment .start rfl
  have whole := reads false []
  rw [List.append_nil] at whole
  refine ⟨(q.pendingNodes ++ q.nodes).reverse, ?_, ?_, ?_⟩
  · rw [read, tokens, whole, tokensFrom, readFrom, Progress.complete, Progress.flush_eq, frames]
    rfl
  · rw [nodes, List.reverse_append, List.reverse_append, outlineAll_append, outlineAll_append,
      outline, outlineAll_pendingNodes]
    simp [Progress.start, outlineAll]
  · rw [nodes, classedAll_reverse]
    exact classedAll_append.mpr ⟨classedAll_pendingNodes q,
      classedAll_append.mpr ⟨classed, trivial⟩⟩

/-- Nothing has no outline. -/
theorem outline_eq_nil {os : List Outline} (fragment : Fragment [] os) : os = [] := by
  obtain ⟨nodes, read, outline, -⟩ := fragment.exists_read
  obtain rfl : [] = nodes := Except.ok.inj read
  exact outline.symm

end Fragment

end StaticSite.Markup
