import StaticSite.Proofs.Markup.Spreading
import StaticSite.Proofs.Markup.Sound

/-! # Inline elements that touch

Between two inline elements of a list with nothing but comments between them, a layout writes the
comments and nothing else wherever the list stands on one line or counts its white space. Where the
list has a line for each node, it puts a line break before each comment and before the second
element. That happens only around a comment, for neighbours keep their list on one line.
-/

namespace StaticSite.Markup

/-! ## Places -/

/-- How a list of nodes is written: with a line for each node at a depth, on one line, or as it is
where white space counts. -/
inductive Place
  | lines (depth : Nat)
  | line
  | verbatim
  deriving DecidableEq, Repr

namespace Place

/-- The place of the nodes of a document. -/
def top (nodes : List Node) : Place := if showsBreaks nodes then .line else .lines 0

/-- The place of the content of an element, unless the element is written without it. -/
def inside? (name : Text) (children : List Node) : Place → Option Place
  | .verbatim => some .verbatim
  | .line =>
      if voidElements.elem name then none
      else some (if verbatimElements.elem name then .verbatim else .line)
  | .lines depth =>
      if voidElements.elem name then none
      else some (if verbatimElements.elem name then .verbatim
        else if keepsInline name children then .line
        else .lines (depth + 1))

/-- The pieces of nodes at a place. -/
def pieces : Place → List Node → List Piece
  | .verbatim, ns => keptPiecesAll false ns
  | _, ns => piecesAll ns

/-- A node with no white space around it, as it is written at a place. -/
def written : Place → Node → Text
  | .verbatim, n => Markup.verbatim false n
  | _, n => inline n

/-- What stands before a comment and before what follows one. -/
def gap (style : Style) : Place → Text
  | .lines depth => '\n' :: style.indent depth
  | _ => []

theorem pieces_append (place : Place) (ns ms : List Node) :
    place.pieces (ns ++ ms) = place.pieces ns ++ place.pieces ms := by
  cases place
  · exact piecesAll_append ns ms
  · exact piecesAll_append ns ms
  · exact keptPiecesAll_append false ns ms

end Place

/-- The lists of nodes that are written in a document, each with its place. -/
inductive ChildList (nodes : List Node) : Place → List Node → Prop
  | top : ChildList nodes (.top nodes) nodes
  | child {place deeper : Place} {inner children : List Node} {name : Text} {attributes : Attributes}
      (above : ChildList nodes place inner) (member : .element name attributes children ∈ inner)
      (written : place.inside? name children = some deeper) : ChildList nodes deeper children

/-! ## Pieces that touch -/

namespace Piece

/-- Whether a piece starts with the delimiter of a tag. -/
def Starts (p : Piece) : Prop := p.isBlank = false ∧ p.isSpaced = false ∧ p.text.head? = some '<'

/-- Whether a piece ends with the delimiter of a tag. -/
def Ends (p : Piece) : Prop := p.isBlank = false ∧ p.text.getLast? = some '>'

end Piece

variable {style : Style} {nodes : List Node} {text : Text}

/-- Whether pieces stand in a text as they do on one line, between any two tags among them. -/
def Held (style : Style) (nodes : List Node) (text : Text) (ps : List Piece) : Prop :=
  ∃ us vs, piecesAll nodes = us ++ ps ++ vs ∧ ∀ {as ms bs : List Piece} {p q : Piece},
    ps = as ++ [p] ++ ms ++ q :: bs → p.Ends → q.Starts → (∀ m ∈ ms, m.isBlank = false) →
      ∃ left right f g, text = left ++ oneLine ms ++ right ∧
        Spreads style .start (us ++ (as ++ [p])) left (.after p) ∧
        Spreads style (.after p) ms (oneLine ms) f ∧ Spreads style f (q :: bs ++ vs) right g ∧
        left.getLast? = some '>' ∧ right.head? = some '<'

theorem Held.of_append {xs ps ys : List Piece} (held : Held style nodes text (xs ++ ps ++ ys)) :
    Held style nodes text ps := by
  obtain ⟨us, vs, whole, between⟩ := held
  refine ⟨us ++ xs, ys ++ vs, by simp [whole], ?_⟩
  intro as ms bs p q split ends starts visible
  obtain ⟨left, right, f, g, same, before, middle, behind, final, first⟩ :=
    between (show _ = xs ++ as ++ [p] ++ ms ++ q :: (bs ++ ys) by simp [split]) ends starts visible
  refine ⟨left, right, f, g, same, ?_, middle, ?_, final, first⟩
  · simpa using before
  · simpa using behind

theorem head?_oneLine {q : Piece} (starts : q.Starts) (bs : List Piece) :
    (oneLine (q :: bs)).head? = some '<' := by
  obtain ⟨-, plain, first⟩ := starts
  rw [oneLine_cons, Piece.inLine, plain]
  obtain ⟨rest, text⟩ := List.head?_eq_some_iff.mp first
  rw [text]
  rfl

theorem getLast?_oneLine (as : List Piece) {p : Piece} (ends : p.Ends) :
    (oneLine (as ++ [p])).getLast? = some '>' := by
  obtain ⟨front, text⟩ := List.getLast?_eq_some_iff.mp ends.2
  simp [Piece.inLine, text]

theorem head?_append_of_head? {s : Text} {c : Char} (first : s.head? = some c) (t : Text) :
    (s ++ t).head? = some c := by
  obtain ⟨rest, rfl⟩ := List.head?_eq_some_iff.mp first
  rfl

theorem getLast?_append_of_getLast? (s : Text) {t : Text} {c : Char} (last : t.getLast? = some c) :
    (s ++ t).getLast? = some c := mem_getLast?_of_ending (List.suffix_append s t) c last

/-- Pieces that start with a visible one are spaces behind their last visible one. -/
theorem exists_last_of_visible {q : Piece} (visible : q.isBlank = false) (bs : List Piece) :
    ∃ ds r n, q :: bs = ds ++ [r] ++ List.replicate n .blank ∧ r.isBlank = false ∧
      ∃ rest, ds ++ [r] = q :: rest := by
  rcases exists_last_visible (q :: bs) with ⟨n, blanks⟩ | ⟨ds, r, n, parts, shows⟩
  · have blank : q ∈ List.replicate n .blank := blanks ▸ List.mem_cons_self
    obtain rfl := List.eq_of_mem_replicate blank
    cases visible
  · refine ⟨ds, r, n, parts, shows, ?_⟩
    cases ds with
    | nil => exact ⟨[], by rw [(List.cons.inj parts).1]; rfl⟩
    | cons d rest => exact ⟨rest ++ [r], by rw [(List.cons.inj parts).1]; rfl⟩

/-- Behind a tag only the spaces at the end of the content are trimmed. -/
theorem trimSpaces_oneLine_of_ends {as ms ds : List Piece} {p r : Piece} {n : Nat}
    (ended : Ended (as ++ [p] ++ ms ++ ds ++ [r] ++ List.replicate n .blank)) (ends : p.Ends)
    (visible : r.isBlank = false) :
    (oneLine (as ++ [p] ++ ms ++ ds ++ [r] ++ List.replicate n .blank)).trimSpaces =
      (oneLine (as ++ [p])).dropWhile (· == ' ') ++ oneLine ms ++ oneLine (ds ++ [r]) := by
  have tag := List.mem_of_mem_getLast? (getLast?_oneLine as ends)
  rw [(trimSpaces_oneLine ended visible).2, List.append_assoc, List.append_assoc, oneLine_append,
    oneLine_append ms, dropWhile_append_of_exists ⟨'>', tag, by decide⟩, List.append_assoc]

section Content

variable {us cs vs : List Piece} {left right : Text}
variable (whole : piecesAll nodes = us ++ cs ++ vs)
variable (below : ∀ f, ∃ g, Spreads style f vs right g)
include whole below

/-- Content where white space counts is held. -/
theorem held_kept {r : Piece} (above : Spreads style .start us left (.after r))
    (visible : ∀ p ∈ cs, p.isBlank = false) :
    Held style nodes (left ++ oneLine cs ++ right) cs := by
  refine ⟨us, vs, whole, ?_⟩
  intro as ms bs p q split ends starts between
  have before := above.append (spreads_line_concat style (.after r) as ends.1)
  obtain ⟨m, middle⟩ := exists_spreads_visible style p between
  have visible : ∀ d ∈ q :: bs, d.isBlank = false :=
    fun d member => visible d (by rw [split]; exact List.mem_append_right _ member)
  obtain ⟨b, behind⟩ := exists_spreads_visible style m visible
  obtain ⟨g, final⟩ := below (.after b)
  refine ⟨_, _, _, g, ?_, before, middle, behind.append final, ?_, ?_⟩
  · rw [split]
    simp [Front.gap, Front.after]
  · exact getLast?_append_of_getLast? _ (getLast?_oneLine as ends)
  · exact head?_append_of_head? (head?_oneLine starts bs) right

/-- Content that loses the spaces at its ends is held. -/
theorem held_content {f : Front} (above : Spreads style .start us left f)
    (opens : f.opens = true) (ended : Ended cs) :
    Held style nodes (left ++ (oneLine cs).trimSpaces ++ right) cs := by
  refine ⟨us, vs, whole, ?_⟩
  intro as ms bs p q split ends starts between
  have first : (shown cs).head? = (shown (as ++ [p])).head? := by
    have some : shown (as ++ [p]) ≠ [] := by
      rw [shown_append, shown_singleton ends.1]
      simp
    rw [split, shown_append, shown_append, List.append_assoc, List.head?_append_of_ne_nil _ some]
  have before := above.append (spreads_edge_concat style opens as ends.1 (first ▸ ended.first))
  obtain ⟨m, middle⟩ := exists_spreads_visible style p between
  -- The spaces at the end of the content are behind its last visible piece.
  obtain ⟨ds, r, n, parts, visible, later, starting⟩ := exists_last_of_visible starts.1 bs
  have line : cs = as ++ [p] ++ ms ++ ds ++ [r] ++ List.replicate n .blank := by
    rw [split, parts]
    simp
  have behind := (spreads_line_concat style (.after m) ds visible).append
    (spreads_blanks (.after r) n)
  obtain ⟨g, rest⟩ := below ⟨(Front.after r).behind, (Front.after r).blanks + n⟩
  refine ⟨_, oneLine (ds ++ [r]) ++ right, _, g, ?_, before, middle, ?_, ?_, ?_⟩
  · rw [line, trimSpaces_oneLine_of_ends (line ▸ ended) ends visible]
    simp
  · have joined := behind.append rest
    rw [← parts] at joined
    simpa [Front.gap, Front.after] using joined
  · refine getLast?_append_of_getLast? _ ?_
    obtain ⟨front, opened⟩ := List.getLast?_eq_some_iff.mp (getLast?_oneLine as ends)
    rw [opened, dropWhile_append_of_head? ['>'] (by simp)]
    exact List.getLast?_concat
  · rw [starting]
    exact head?_append_of_head? (head?_oneLine starts later) right

end Content

/-! ## Lines in a document -/

/-- Whether lines of a depth that are some of the pieces stand in a text. -/
def Placed (style : Style) (nodes : List Node) (text : Text) (depth : Nat) (ps : List Piece)
    (ls : List Text) : Prop :=
  ∃ us vs left right f, piecesAll nodes = us ++ ps ++ vs ∧ Spreads style .start us left f ∧
    f.Ready depth ∧ text = left ++ stacked f.begun ls ++ right ∧
    ∀ g : Front, g.Ready depth → g.begun = (f.begun || !ls.isEmpty) → ∃ h, Spreads style g vs right h

theorem Placed.of_append {depth : Nat} {ps qs rs : List Piece} {ls ms ns : List Text}
    (placed : Placed style nodes text depth (ps ++ qs ++ rs) (ls ++ ms ++ ns))
    (before : Lays style depth ps ls) (behind : Lays style depth rs ns) :
    Placed style nodes text depth qs ms := by
  obtain ⟨us, vs, left, right, f, whole, above, ready, same, below⟩ := placed
  obtain ⟨g, front, between, begun⟩ := before f ready
  refine ⟨us ++ ps, rs ++ vs, left ++ stacked f.begun ls, stacked (g.begun || !ms.isEmpty) ns ++ right,
    g, by simp [whole], above.append front, between, ?_, fun h after written => ?_⟩
  · rw [same, begun, stacked_append, stacked_append]
    cases ls <;> simp
  · obtain ⟨k, back, ends, all⟩ := behind h after
    obtain ⟨final, rest⟩ := below k ends (by rw [all, written, begun]; cases ls <;> cases ms <;> simp)
    exact ⟨final, written ▸ back.append rest⟩

section Elements

variable {depth : Nat} {name : Text} {attributes : Attributes} {children : List Node}
variable {ps : List Piece}

/-- What stands behind the lines of an element stands behind its end tag. -/
theorem exists_behind_closing (style : Style) (name : Text) {vs : List Piece} {right : Text} {begun : Bool}
    (begins : begun = true)
    (below : ∀ g : Front, g.Ready depth → g.begun = begun → ∃ h, Spreads style g vs right h) (f : Front) :
    ∃ h, Spreads style f (.closing name :: vs) (endTag name ++ right) h := by
  obtain ⟨h, rest⟩ := below (.after (.closing name)) rfl begins.symm
  exact ⟨h, .piece (s := []) rfl (.edge (.inr rfl) rfl) (.same (.closing name)) rest⟩

/-- The content of an element that stands on one line is held. -/
theorem Placed.held_content (placed : Placed style nodes text depth
      (tagPieces name attributes false ++ piecesAll children ++ [.closing name])
      (appendToLast ((inlineAll children).trimSpaces ++ endTag name)
        (startLines style depth name attributes ">"))) :
    Held style nodes text (piecesAll children) := by
  obtain ⟨us, vs, left, right, f, whole, above, ready, same, below⟩ := placed
  have tag := above.append (spreads_startLines style ready name attributes false)
  have behind := exists_behind_closing style name
    (by simpa using .inr (appendToLast_ne_nil _ _)) below
  have parts : piecesAll nodes =
      us ++ tagPieces name attributes false ++ piecesAll children ++ .closing name :: vs := by
    simp [whole]
  have held := StaticSite.Markup.held_content parts behind tag rfl (ended_piecesAll children)
  rw [same, stacked_appendToLast _ (startLines_ne_nil style depth name attributes _)]
  rw [oneLine_piecesAll] at held
  simpa [tagEnding] using held

/-- The content of an element whose white space counts is held. -/
theorem Placed.held_kept (placed : Placed style nodes text depth
      (tagPieces name attributes false ++ keptPiecesAll false children ++ [.closing name])
      (appendToLast (verbatimAll false children ++ endTag name)
        (startLines style depth name attributes ">"))) :
    Held style nodes text (keptPiecesAll false children) := by
  obtain ⟨us, vs, left, right, f, whole, above, ready, same, below⟩ := placed
  have tag := above.append (spreads_startLines style ready name attributes false)
  have behind := exists_behind_closing style name
    (by simpa using .inr (appendToLast_ne_nil _ _)) below
  have parts : piecesAll nodes =
      us ++ tagPieces name attributes false ++ keptPiecesAll false children ++ .closing name :: vs := by
    simp [whole]
  have held := StaticSite.Markup.held_kept parts behind tag (visible_keptPiecesAll false children)
  rw [same, stacked_appendToLast _ (startLines_ne_nil style depth name attributes _)]
  rw [oneLine_keptPiecesAll] at held
  simpa [tagEnding] using held

/-- The content of an element with a line for each node stands one level deeper. -/
theorem Placed.surrounded {ls : List Text} (placed : Placed style nodes text depth
      (tagPieces name attributes false ++ ps ++ [.closing name])
      (startLines style depth name attributes ">" ++ ls ++ [style.indent depth ++ endTag name])) :
    Placed style nodes text (depth + 1) ps ls := by
  obtain ⟨us, vs, left, right, f, whole, above, ready, same, below⟩ := placed
  have tag := above.append (spreads_startLines style ready name attributes false)
  refine ⟨us ++ tagPieces name attributes false, .closing name :: vs, _,
    '\n' :: style.indent depth ++ endTag name ++ right, _, by simp [whole], tag, rfl, ?_, ?_⟩
  · have lines := stacked_append_of_ne_nil f.begun
      (startLines_ne_nil style depth name attributes ">") (ls ++ [style.indent depth ++ endTag name])
    rw [same, List.append_assoc (startLines _ _ _ _ _), lines, ← stacked_true, stacked_append]
    simp [stacked, tagEnding, Front.begun, Front.after]
  · intro g between begun
    obtain ⟨h, rest⟩ := below (.after (.closing name)) rfl (by simp [Front.begun, Front.after])
    exact ⟨h, .piece rfl (.broken depth (between.breaks begun) rfl) (.same (.closing name)) rest⟩

end Elements

/-! ## Child lists in a document -/

/-- Whether a node is an element. -/
def Node.isElement : Node → Bool
  | .element _ _ _ => true
  | _ => false

/-- Whether the nodes of a list stand in a text as their place says. -/
def Located (style : Style) (nodes : List Node) (text : Text) : Place → List Node → Prop
  | .lines depth, ns => showsBreaks ns = false ∧ ∃ ls, allLines style depth ns = .ok ls ∧
      Placed style nodes text depth (piecesAll ns) ls
  | .line, ns => Held style nodes text (piecesAll ns)
  | .verbatim, ns => Held style nodes text (keptPiecesAll false ns)

theorem exists_of_allLines_append {depth : Nat} {ns ms : List Node} {lines : List Text}
    (laid : allLines style depth (ns ++ ms) = .ok lines) : ∃ first others,
      allLines style depth ns = .ok first ∧ allLines style depth ms = .ok others ∧
        lines = first ++ others := by
  induction ns generalizing lines with
  | nil => exact ⟨[], lines, rfl, laid, rfl⟩
  | cons n rest ih =>
    obtain ⟨here, more, first, later, rfl⟩ := exists_of_allLines_cons laid
    obtain ⟨ls, others, second, behind, rfl⟩ := ih later
    refine ⟨here ++ ls, others, ?_, behind, by simp⟩
    rw [allLines, first, second]
    rfl

/-- The lines of a list that has a line for each node are those of its parts. -/
theorem exists_lays_parts {depth : Nat} {ns ms ks : List Node} {ls : List Text}
    (still : showsBreaks (ns ++ ms ++ ks) = false)
    (laid : allLines style depth (ns ++ ms ++ ks) = .ok ls) : ∃ one two three,
      ls = one ++ two ++ three ∧
      (allLines style depth ns = .ok one ∧ Lays style depth (piecesAll ns) one) ∧
      (allLines style depth ms = .ok two ∧ Lays style depth (piecesAll ms) two) ∧
      (allLines style depth ks = .ok three ∧ Lays style depth (piecesAll ks) three) := by
  have quiet := isVisibleText_of_not_showsBreaks still
  obtain ⟨ahead, three, front, last, rfl⟩ := exists_of_allLines_append laid
  obtain ⟨one, two, start, middle, rfl⟩ := exists_of_allLines_append front
  refine ⟨one, two, three, rfl, ⟨start, lays_allLines (fun n member => quiet n ?_) start⟩,
    ⟨middle, lays_allLines (fun n member => quiet n ?_) middle⟩,
    ⟨last, lays_allLines (fun n member => quiet n ?_) last⟩⟩
  · exact List.mem_append_left _ (List.mem_append_left _ member)
  · exact List.mem_append_left _ (List.mem_append_right _ member)
  · exact List.mem_append_right _ member

/-- Three parts of a list that has a line for each node, spread one after the other. -/
theorem Placed.exists_parts {depth : Nat} {ns ms ks : List Node} {ls : List Text}
    (placed : Placed style nodes text depth (piecesAll (ns ++ ms ++ ks)) ls)
    (still : showsBreaks (ns ++ ms ++ ks) = false)
    (laid : allLines style depth (ns ++ ms ++ ks) = .ok ls) :
    ∃ (one two three : List Text) (us vs : List Piece) (left right : Text) (f g h final : Front),
      allLines style depth ns = .ok one ∧
      allLines style depth ms = .ok two ∧ allLines style depth ks = .ok three ∧
      piecesAll nodes = us ++ piecesAll ns ++ piecesAll ms ++ piecesAll ks ++ vs ∧
      text = left ++ stacked f.begun one ++ stacked g.begun two ++ stacked h.begun three ++ right ∧
      Spreads style .start (us ++ piecesAll ns) (left ++ stacked f.begun one) g ∧
      Spreads style g (piecesAll ms) (stacked g.begun two) h ∧
      h.begun = (g.begun || !two.isEmpty) ∧
      Spreads style h (piecesAll ks ++ vs) (stacked h.begun three ++ right) final := by
  obtain ⟨one, two, three, rfl, ⟨start, laysOne⟩, ⟨middle, laysTwo⟩, last, laysThree⟩ :=
    exists_lays_parts still laid
  obtain ⟨us, vs, left, right, f, whole, above, ready, same, below⟩ := placed
  obtain ⟨g, first, firstReady, firstBegun⟩ := laysOne f ready
  obtain ⟨h, second, secondReady, secondBegun⟩ := laysTwo g firstReady
  obtain ⟨k, third, thirdReady, thirdBegun⟩ := laysThree h secondReady
  have all : k.begun = (f.begun || !(one ++ two ++ three).isEmpty) := by
    rw [thirdBegun, secondBegun, firstBegun]
    cases one <;> cases two <;> simp
  obtain ⟨final, rest⟩ := below k thirdReady all
  refine ⟨one, two, three, us, vs, left, right, f, g, h, final, start, middle, last, ?_, ?_,
    above.append first, second, secondBegun, third.append rest⟩
  · rw [whole, piecesAll_append, piecesAll_append]
    simp
  · rw [same, stacked_append, stacked_append, secondBegun, firstBegun]
    cases one <;> simp

/-- What stands between two parts of a list that has a line for each node. -/
theorem Placed.of_allLines {depth : Nat} {before inner behind : List Node} {ls : List Text}
    (placed : Placed style nodes text depth (piecesAll (before ++ inner ++ behind)) ls)
    (still : showsBreaks (before ++ inner ++ behind) = false)
    (laid : allLines style depth (before ++ inner ++ behind) = .ok ls) :
    ∃ ms, allLines style depth inner = .ok ms ∧ Placed style nodes text depth (piecesAll inner) ms := by
  obtain ⟨first, second, third, rfl, ⟨-, start⟩, ⟨middle, -⟩, -, last⟩ := exists_lays_parts still laid
  rw [piecesAll_append, piecesAll_append] at placed
  exact ⟨second, middle, placed.of_append start last⟩

section Children

variable {name : Text} {attributes : Attributes} {children : List Node}
variable (plain : ¬ rawElements.elem name = true) (shows : ¬ children.all Node.isBlank = true)
include plain

/-- Pieces of an element on one line are held with those of its content. -/
theorem Held.located_line {deeper : Place}
    (held : Held style nodes text (pieces (.element name attributes children)))
    (written : Place.line.inside? name children = some deeper) :
    Located style nodes text deeper children := by
  rw [Place.inside?] at written
  rw [pieces] at held
  by_cases void : voidElements.elem name = true
  · rw [if_pos void] at written
    cases written
  rw [if_neg void] at written held
  obtain rfl := Option.some.inj written
  by_cases counts : verbatimElements.elem name = true
  · rw [if_pos counts] at held ⊢
    exact held.of_append
  · rw [if_neg counts, if_neg plain] at held
    rw [if_neg counts]
    exact held.of_append

include shows

/-- The content of an element that has lines of its own stands in the text as its place says. -/
theorem Placed.located_child {depth : Nat} {deeper : Place} {ls : List Text}
    (laid : nodeLines style depth (.element name attributes children) = .ok ls)
    (placed : Placed style nodes text depth (pieces (.element name attributes children)) ls)
    (written : (Place.lines depth).inside? name children = some deeper) :
    Located style nodes text deeper children := by
  rw [pieces] at placed
  rw [Place.inside?] at written
  cases elementLines_of_nodeLines laid with
  | void void =>
    rw [if_pos void] at written
    cases written
  | verbatim ends counts =>
    rw [if_neg ends, if_pos counts] at placed written
    obtain rfl := Option.some.inj written
    exact placed.held_kept
  | line ends other _ keeps =>
    rw [if_neg ends, if_neg other, if_neg plain] at placed
    rw [if_neg ends, if_neg other, if_pos keeps] at written
    obtain rfl := Option.some.inj written
    exact placed.held_content
  | block ends other _ breaks _ made =>
    rw [if_neg ends, if_neg other, if_neg plain] at placed
    rw [if_neg ends, if_neg other, if_neg breaks] at written
    obtain rfl := Option.some.inj written
    exact ⟨(Bool.or_eq_false_iff.mp (Bool.not_eq_true _ ▸ breaks)).2, _, made, placed.surrounded⟩
  | rawBlank _ _ raw | raw _ _ raw => exact absurd raw plain
  | blank _ _ _ _ blank => exact absurd blank shows

/-- Pieces of an element whose white space counts are held with those of its content. -/
theorem Held.located_verbatim
    (held : Held style nodes text (keptPieces false (.element name attributes children))) :
    Located style nodes text .verbatim children := by
  have some : children.isEmpty = false := by
    cases children with
    | nil => exact absurd rfl shows
    | cons n rest => rfl
  rw [keptPieces, some, Bool.false_and, if_neg Bool.false_ne_true, eq_false_of_ne_true plain] at held
  exact Held.of_append (show Held style nodes text ([_] ++ _ ++ _) from held)

theorem Located.child {place deeper : Place} {inner : List Node}
    (located : Located style nodes text place inner)
    (member : .element name attributes children ∈ inner)
    (written : place.inside? name children = some deeper) :
    Located style nodes text deeper children := by
  obtain ⟨before, behind, rfl⟩ := List.append_of_mem member
  have split : before ++ .element name attributes children :: behind =
      before ++ [.element name attributes children] ++ behind := by simp
  rw [split] at located
  cases place with
  | lines depth =>
    obtain ⟨still, ls, laid, placed⟩ := located
    obtain ⟨ms, made, here⟩ := placed.of_allLines still laid
    obtain ⟨own, none, first, rest, rfl⟩ := exists_of_allLines_cons made
    obtain rfl := Except.ok.inj rest
    rw [List.append_nil] at here
    rw [piecesAll, piecesAll, List.append_nil] at here
    exact here.located_child plain shows first written
  | line =>
    have held : Held style nodes text
        (piecesAll (before ++ [.element name attributes children] ++ behind)) := located
    rw [piecesAll_append, piecesAll_append] at held
    have own := held.of_append
    rw [piecesAll, piecesAll, List.append_nil] at own
    exact own.located_line plain written
  | verbatim =>
    have held : Held style nodes text
        (keptPiecesAll false (before ++ [.element name attributes children] ++ behind)) := located
    obtain rfl := Option.some.inj written
    rw [keptPiecesAll_append, keptPiecesAll_append] at held
    have own := held.of_append
    rw [keptPiecesAll, keptPiecesAll, List.append_nil] at own
    exact own.located_verbatim plain shows

end Children

/-- Every list of a document that has elements stands in the text as its place says. -/
theorem located_childList (sound : SoundAll false nodes)
    (top : (∃ n ∈ nodes, n.isElement = true) → Located style nodes text (.top nodes) nodes)
    {place : Place} {inner : List Node} (inside : ChildList nodes place inner) :
    (∃ counts, SoundAll counts inner) ∧
      ((∃ n ∈ inner, n.isElement = true) → Located style nodes text place inner) := by
  induction inside with
  | top => exact ⟨⟨false, sound⟩, top⟩
  | @child place deeper inner children name attributes above member written ih =>
    obtain ⟨⟨counts, all⟩, located⟩ := ih
    obtain ⟨-, -, ⟨raw, -⟩, below⟩ := soundAll_iff.mp all _ member
    refine ⟨⟨_, below⟩, fun ⟨n, inner, isElement⟩ => ?_⟩
    refine (located ⟨_, member, rfl⟩).child (fun isRaw => ?_) (fun blank => ?_) member written
    · obtain ⟨content, -, texts⟩ := raw (List.elem_iff.mp isRaw)
      subst texts
      split at inner
      · cases inner
      · obtain rfl := List.mem_singleton.mp inner
        cases isElement
    · have hidden := List.all_eq_true.mp blank n inner
      cases n <;> first | cases hidden | cases isElement

/-- A document stands in its layout as the place of its nodes says. -/
theorem exists_located {nodes : List Node} {lines : List Text}
    (laid : layoutLines style nodes = .ok lines) : ∃ text,
      Located style nodes text (.top nodes) nodes ∧ (text ≠ [] → Text.page lines = text ++ ['\n']) := by
  unfold layoutLines at laid
  unfold Place.top
  split at laid
  · next breaks =>
    obtain rfl := Except.ok.inj laid
    have parts : piecesAll nodes = [] ++ piecesAll nodes ++ [] := by simp
    have held : Held style nodes _ (piecesAll nodes) :=
      held_content parts (fun f => ⟨f, .nil f⟩) (.nil .start) rfl (ended_piecesAll nodes)
    rw [oneLine_piecesAll, List.nil_append, List.append_nil] at held
    refine ⟨(inlineAll nodes).trimSpaces, ?_, fun some => ?_⟩
    · rw [if_pos breaks]
      exact held
    · rw [if_neg (mt List.isEmpty_iff.mp some)]
      rfl
  · next still =>
    refine ⟨stacked false lines, ?_, fun some => ?_⟩
    · rw [if_neg still]
      exact ⟨by simpa using still, lines, laid, [], [], [], [], .start, by simp, .nil _, rfl,
        by simp [Front.begun, Front.start], fun g _ _ => ⟨g, .nil g⟩⟩
    · rw [Stylesheet.page_eq_written, written_eq_stacked]
      rintro rfl
      exact some rfl

/-! ## Touching elements -/

theorem exists_startLines (style : Style) (depth : Nat) (name : Text) (attributes : Attributes)
    (ending : Text) : ∃ rest others,
      startLines style depth name attributes ending = (style.indent depth ++ '<' :: rest) :: others := by
  unfold startLines
  dsimp only
  split
  · exact ⟨_, [], rfl⟩
  · exact ⟨name, _, rfl⟩

/-- The first line of an element starts with its start tag. -/
theorem exists_elementLines {depth : Nat} {name : Text} {attributes : Attributes}
    {children : List Node} {ls : List Text}
    (laid : nodeLines style depth (.element name attributes children) = .ok ls) :
    ∃ rest others, ls = (style.indent depth ++ '<' :: rest) :: others := by
  obtain ⟨rest, others, opening⟩ := exists_startLines style depth name attributes ">"
  have around (t : Text) : ∃ rest others,
      appendToLast t (startLines style depth name attributes ">") =
        (style.indent depth ++ '<' :: rest) :: others := by
    rw [opening]
    cases others with
    | nil => exact ⟨rest ++ t, [], by simp [appendToLast]⟩
    | cons l more => exact ⟨rest, appendToLast t (l :: more), rfl⟩
  have surround (ls : List Text) (last : Text) : ∃ rest others,
      startLines style depth name attributes ">" ++ ls ++ [last] =
        (style.indent depth ++ '<' :: rest) :: others := by
    rw [opening]
    exact ⟨rest, _, rfl⟩
  cases elementLines_of_nodeLines laid with
  | void => exact exists_startLines style depth name attributes " />"
  | verbatim | rawBlank | line | blank => exact around _
  | raw | block => exact surround _ _

/-- The pieces of an element start and end with delimiters of tags. -/
theorem exists_pieces_element (style : Style) (place : Place) (name : Text)
    (attributes : Attributes) (children : List Node) :
    (∃ q qs, place.pieces [.element name attributes children] = q :: qs ∧ q.Starts) ∧
      ∃ ps p, place.pieces [.element name attributes children] = ps ++ [p] ∧ p.Ends ∧
        ∀ w, p.WrittenAs style w → w = p.text := by
  have same {p : Piece} (content : ∀ name body, p ≠ .raw name body) :
      ∀ w, p.WrittenAs style w → w = p.text := by
    intro w written
    cases written <;> first | rfl | exact absurd rfl (content _ _)
  have tag : (endTag name).getLast? = some '>' := List.getLast?_concat
  have line : (∃ q qs, piecesAll [.element name attributes children] = q :: qs ∧ q.Starts) ∧
      ∃ ps p, piecesAll [.element name attributes children] = ps ++ [p] ∧ p.Ends ∧
        ∀ w, p.WrittenAs style w → w = p.text := by
    rw [piecesAll, piecesAll, List.append_nil, pieces]
    split
    · exact ⟨⟨.opening name, _, rfl, rfl, rfl, rfl⟩, _, .ending true, rfl, ⟨rfl, rfl⟩, same (by simp)⟩
    · exact ⟨⟨.opening name, _, rfl, rfl, rfl, rfl⟩, _, .closing name, rfl, ⟨rfl, tag⟩, same (by simp)⟩
  cases place with
  | lines depth => exact line
  | line => exact line
  | verbatim =>
    change (∃ q qs, keptPiecesAll false [.element name attributes children] = q :: qs ∧ q.Starts) ∧
      ∃ ps p, keptPiecesAll false [.element name attributes children] = ps ++ [p] ∧ p.Ends ∧
        ∀ w, p.WrittenAs style w → w = p.text
    rw [keptPiecesAll, keptPiecesAll, List.append_nil, keptPieces]
    split
    · exact ⟨⟨_, [], rfl, rfl, rfl, rfl⟩, [], _, rfl,
        ⟨rfl, getLast?_append_of_getLast? _ (t := "/>") rfl⟩, same (by simp)⟩
    · exact ⟨⟨_, _, rfl, rfl, rfl, rfl⟩, _, .kept (endTag name), rfl, ⟨rfl, tag⟩, same (by simp)⟩

theorem anyNeighbours_of_touching {test : Node → Bool} {a b : Node} (first : test a = true)
    (second : test b = true) (before behind : List Node) :
    anyNeighbours test (before ++ a :: b :: behind) = true := by
  induction before with
  | nil => simp [anyNeighbours, first, second]
  | cons n rest ih =>
    cases rest with
    | nil => simp_all [anyNeighbours]
    | cons m more => simp_all [anyNeighbours]

theorem Spreads.of_append {f h : Front} {ps qs : List Piece} {t : Text}
    (spreads : Spreads style f (ps ++ qs) t h) : ∃ s u g, t = s ++ u ∧ Spreads style f ps s g ∧
      Spreads style g qs u h := by
  induction ps generalizing f t with
  | nil => exact ⟨[], t, f, rfl, .nil f, spreads⟩
  | cons p rest ih =>
    cases spreads with
    | blank more =>
      obtain ⟨s, u, g, rfl, first, second⟩ := ih more
      exact ⟨s, u, g, rfl, .blank first, second⟩
    | piece visible seam written more =>
      obtain ⟨s, u, g, rfl, first, second⟩ := ih more
      exact ⟨_, u, g, (List.append_assoc _ _ _).symm, .piece visible seam written first, second⟩

/-- A text ends with the last of its pieces. -/
theorem Spreads.ends_with {f g : Front} {ps : List Piece} {p : Piece} {t : Text}
    (spreads : Spreads style f (ps ++ [p]) t g) (ends : p.Ends)
    (same : ∀ w, p.WrittenAs style w → w = p.text) : t.getLast? = some '>' ∧ g = .after p := by
  obtain ⟨s, u, h, rfl, -, last⟩ := spreads.of_append
  cases last with
  | blank => cases ends.1
  | piece visible seam written more =>
    cases more
    rw [List.append_nil, same _ written]
    exact ⟨getLast?_append_of_getLast? _ (getLast?_append_of_getLast? _ ends.2), rfl⟩

/-- The parts of a text that come from two neighbouring parts of a list of nodes with some nodes
between them: they meet at tags, and each node between them stands behind the gap of the place. -/
def Meets (style : Style) (nodes : List Node) (out : Text) (place : Place)
    (first between second : List Node) : Prop :=
  ∃ us vs left right f g h,
    piecesAll nodes = us ++ place.pieces first ++ place.pieces between ++ place.pieces second ++ vs ∧
    out = left ++ between.flatMap (fun n => place.gap style ++ place.written n) ++
      place.gap style ++ right ++ ['\n'] ∧
    Spreads style .start (us ++ place.pieces first) left f ∧
    Spreads style f (place.pieces between)
      (between.flatMap fun n => place.gap style ++ place.written n) g ∧
    Spreads style g (place.pieces second ++ vs) (place.gap style ++ right) h ∧
    left.getLast? = some '>' ∧ right.head? = some '<'

theorem Place.oneLine_pieces (place : Place) (ns : List Node) :
    oneLine (place.pieces ns) = ns.flatMap place.written := by
  induction ns with
  | nil => cases place <;> simp [Place.pieces, piecesAll, keptPiecesAll]
  | cons n rest ih =>
    have head : oneLine (place.pieces [n]) = place.written n := by
      cases place <;>
        simp [Place.pieces, Place.written, piecesAll, keptPiecesAll, Markup.oneLine_pieces,
          oneLine_keptPieces]
    rw [show n :: rest = [n] ++ rest from rfl, Place.pieces_append, oneLine_append, ih, head]
    rfl

theorem exists_element_of_isInline {n : Node} (isInline : n.isInline = true) :
    ∃ name attributes children, n = .element name attributes children := by
  cases n <;> first | exact ⟨_, _, _, rfl⟩ | cases isInline

/-- Comments have a line each. -/
theorem allLines_comments (depth : Nat) {notes : List Node}
    (comments : ∀ n ∈ notes, ∃ t, n = .comment t) :
    allLines style depth notes = .ok (notes.map fun n => style.indent depth ++ inline n) := by
  induction notes with
  | nil => rfl
  | cons n rest ih =>
    obtain ⟨⟨t, rfl⟩, others⟩ := List.forall_mem_cons.mp comments
    rw [allLines, ih others, nodeLines]
    · rfl
    all_goals simp

section Touching

variable {before notes behind : List Node} {a b : Node}
variable (first : a.isInline = true) (second : b.isInline = true)
variable (comments : ∀ n ∈ notes, ∃ t, n = .comment t)

include comments in
theorem visible_comments (place : Place) : ∀ p ∈ place.pieces notes, p.isBlank = false := by
  induction notes with
  | nil => cases place <;> simp [Place.pieces, piecesAll, keptPiecesAll]
  | cons n rest ih =>
    obtain ⟨⟨t, rfl⟩, others⟩ := List.forall_mem_cons.mp comments
    rw [show .comment t :: rest = [.comment t] ++ rest from rfl, Place.pieces_append]
    refine List.forall_mem_append.mpr ⟨?_, ih others⟩
    cases place <;>
      simp [Place.pieces, piecesAll, keptPiecesAll, pieces, keptPieces, Piece.isBlank]

include first second

/-- Neighbours among inline elements keep their list on one line. -/
theorem notes_ne_nil_of_still (still : showsBreaks (before ++ a :: notes ++ b :: behind) = false) :
    notes ≠ [] := by
  rintro rfl
  have touching := anyNeighbours_of_touching first second before behind
  rw [List.append_assoc, showsBreaks, Bool.or_eq_false_iff] at still
  exact absurd (touching.symm.trans still.2) (by simp)

include comments

/-- Inline elements that touch in pieces that are held meet without a gap. -/
theorem meets_of_held {place : Place} {out : Text} (flat : place.gap style = [])
    (held : Held style nodes text (place.pieces (before ++ a :: notes ++ b :: behind)))
    (same : text ≠ [] → out = text ++ ['\n']) :
    Meets style nodes out place (before ++ [a]) notes (b :: behind) := by
  obtain ⟨name, attributes, children, rfl⟩ := exists_element_of_isInline first
  obtain ⟨-, as, p, last, ends, -⟩ :=
    exists_pieces_element style place name attributes children
  obtain ⟨other, others, inner, rfl⟩ := exists_element_of_isInline second
  obtain ⟨⟨q, bs, start, starts⟩, -⟩ := exists_pieces_element style place other others inner
  have left : place.pieces (before ++ [.element name attributes children]) =
      place.pieces before ++ as ++ [p] := by
    rw [Place.pieces_append, last, List.append_assoc]
  have right : place.pieces (.element other others inner :: behind) =
      q :: (bs ++ place.pieces behind) := by
    rw [show .element other others inner :: behind = [.element other others inner] ++ behind from rfl,
      Place.pieces_append, start, List.cons_append]
  have parts : place.pieces (before ++ .element name attributes children :: notes ++
      .element other others inner :: behind) =
      (place.pieces before ++ as) ++ [p] ++ place.pieces notes ++ q :: (bs ++ place.pieces behind) := by
    rw [← left, ← right, ← Place.pieces_append, ← Place.pieces_append]
    simp
  obtain ⟨us, vs, whole, between⟩ := held
  obtain ⟨x, y, f, g, written, front, middle, back, final, head⟩ :=
    between parts ends starts (visible_comments comments place)
  rw [Place.oneLine_pieces] at written middle
  refine ⟨us, vs, x, y, .after p, f, g, ?_, ?_, ?_, ?_, ?_, final, head⟩
  · rw [left, right, whole, parts]
    simp
  · have some : text ≠ [] := by
      rintro rfl
      obtain ⟨z, rfl⟩ := List.head?_eq_some_iff.mp head
      simp at written
    rw [same some, written, flat]
    simp
  · rwa [left]
  · simpa [flat] using middle
  · rw [right, flat]
    simpa using back

/-- Inline elements that touch in a list that has a line for each node meet across line breaks. -/
theorem meets_of_lines {depth : Nat} {out : Text}
    (located : Located style nodes text (.lines depth) (before ++ a :: notes ++ b :: behind))
    (same : text ≠ [] → out = text ++ ['\n']) :
    Meets style nodes out (.lines depth) (before ++ [a]) notes (b :: behind) := by
  have split : before ++ a :: notes ++ b :: behind = before ++ [a] ++ notes ++ b :: behind := by simp
  obtain ⟨name, attributes, children, rfl⟩ := exists_element_of_isInline first
  obtain ⟨other, others, inner, rfl⟩ := exists_element_of_isInline second
  obtain ⟨still, ls, laid, placed⟩ := split ▸ located
  obtain ⟨one, two, three, us, vs, left, right, f, g, h, k, -, middle, last, whole, parts, front, noted,
    noting, rest⟩ := placed.exists_parts still laid
  -- The first part ends with a tag, so something has been written.
  obtain ⟨-, as, p, tags, ends, kept⟩ :=
    exists_pieces_element style (.lines depth) name attributes children
  have final : us ++ piecesAll (before ++ [.element name attributes children]) =
      us ++ (piecesAll before ++ as) ++ [p] := by
    rw [piecesAll_append, List.append_assoc, List.append_assoc, ← tags]
    rfl
  obtain ⟨tagEnd, rfl⟩ := (final ▸ front).ends_with ends kept
  have begun : h.begun = true := noting
  obtain rfl := Except.ok.inj (middle.symm.trans (allLines_comments depth comments))
  obtain ⟨own, more, opening, -, rfl⟩ := exists_of_allLines_cons last
  obtain ⟨tag, lines, rfl⟩ := exists_elementLines opening
  have gaps : stacked true (notes.map fun n => style.indent depth ++ inline n) =
      notes.flatMap fun n => (Place.lines depth).gap style ++ (Place.lines depth).written n := by
    rw [stacked_true, List.flatMap_map]
    rfl
  have opened : stacked true ((style.indent depth ++ '<' :: tag) :: lines ++ more) =
      (Place.lines depth).gap style ++ '<' :: (tag ++ stacked true (lines ++ more)) := by
    rw [List.cons_append, stacked]
    simp [Place.gap]
  rw [begun, opened, List.append_assoc] at rest
  rw [begun, opened, show (Front.after p).begun = true from rfl, gaps] at parts
  refine ⟨us, vs, left ++ stacked f.begun one, '<' :: (tag ++ stacked true (lines ++ more)) ++ right,
    .after p, h, k, whole, ?_, front, gaps ▸ noted, rest, tagEnd, rfl⟩
  rw [same (by simp [parts]), parts]
  simp

end Touching

/-- Inline elements with only comments between them meet without white space wherever their list
stands on one line or counts its white space. Elsewhere they have a comment between them, and a line
break before it and behind it. -/
theorem meets_of_childList {t out : Text} {nodes : List Node} (reads : read t = .ok nodes)
    (formats : format style t = .ok out) {place : Place} {before notes behind : List Node} {a b : Node}
    (inside : ChildList nodes place (before ++ a :: notes ++ b :: behind))
    (first : a.isInline = true) (second : b.isInline = true)
    (comments : ∀ n ∈ notes, ∃ t, n = .comment t) :
    Meets style nodes out place (before ++ [a]) notes (b :: behind) ∧
      (notes = [] → place.gap style = []) := by
  obtain ⟨lines, laid, rfl⟩ : ∃ lines, layoutLines style nodes = .ok lines ∧ Text.page lines = out := by
    unfold format at formats
    rw [reads] at formats
    exact exists_of_map formats
  obtain ⟨text, top, same⟩ := exists_located laid
  obtain ⟨name, attributes, children, rfl⟩ := exists_element_of_isInline first
  have located := (located_childList (sound_read reads).2 (fun _ => top) inside).2
    ⟨.element name attributes children, by simp, rfl⟩
  cases place with
  | lines depth =>
    exact ⟨meets_of_lines first second comments located same, fun none =>
      absurd none (notes_ne_nil_of_still first second located.1)⟩
  | line => exact ⟨meets_of_held first second comments rfl located same, fun _ => rfl⟩
  | verbatim => exact ⟨meets_of_held first second comments rfl located same, fun _ => rfl⟩

/-- Two inline elements with a comment between them. -/
def commentedPair : List Node :=
  [.element "b" [] [.text "x"], .comment "c", .element "i" [] [.text "y"]]

theorem meets_of_childList_paragraph :
    read "<p>z<b>x</b><!--c--><i>y</i></p>" = .ok [.element "p" [] (.text "z" :: commentedPair)] ∧
    format .standard "<p>z<b>x</b><!--c--><i>y</i></p>" =
      .ok ("<p>z<b>x</b><!-- c --><i>y</i></p>\n" : Text) ∧
    Meets .standard [.element "p" [] (.text "z" :: commentedPair)]
      "<p>z<b>x</b><!-- c --><i>y</i></p>\n" .line [.text "z", .element "b" [] [.text "x"]]
      [.comment "c"] [.element "i" [] [.text "y"]] := by
  have reads : read "<p>z<b>x</b><!--c--><i>y</i></p>" =
      .ok [.element "p" [] (.text "z" :: commentedPair)] := by rfl
  have formats : format .standard "<p>z<b>x</b><!--c--><i>y</i></p>" =
      .ok ("<p>z<b>x</b><!-- c --><i>y</i></p>\n" : Text) := by decide +kernel
  have inside : ChildList [.element "p" [] (.text "z" :: commentedPair)] .line
      ([.text "z"] ++ .element "b" [] [.text "x"] :: [.comment "c"] ++ .element "i" [] [.text "y"] :: []) :=
    .child .top List.mem_cons_self rfl
  exact ⟨reads, formats, (meets_of_childList reads formats inside rfl rfl (by simp)).1⟩

/-- In a block that has a line for each node, a comment between two inline elements puts white space
around itself. -/
theorem format_commentedPair :
    read "<div><b>x</b><!--c--><i>y</i></div>" = .ok [.element "div" [] commentedPair] ∧
    ChildList [.element "div" [] commentedPair] (.lines 1) commentedPair ∧
    format .standard "<div><b>x</b><!--c--><i>y</i></div>" =
      .ok ("<div>\n  <b>x</b>\n  <!-- c -->\n  <i>y</i>\n</div>\n" : Text) ∧
    ¬ ("</b><!-- c --><i>" : Text) <:+: "<div>\n  <b>x</b>\n  <!-- c -->\n  <i>y</i>\n</div>\n" :=
  ⟨by rfl, .child .top List.mem_cons_self rfl, by decide +kernel, by decide +kernel⟩

end StaticSite.Markup
