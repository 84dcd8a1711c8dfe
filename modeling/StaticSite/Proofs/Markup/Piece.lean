import StaticSite.Proofs.Markup.Blocks

/-! # Pieces of markup

The parts that a layout keeps whole, in the order they are written in: tags and their attributes,
constructs with delimiters of their own, runs of text, and content where white space counts. On one
line they stand side by side, with a space before an attribute and before the slash of a tag.
-/

namespace StaticSite.Markup

/-- A part of markup that a layout keeps whole. -/
inductive Piece
  /-- A start tag up to its name. -/
  | opening (name : Text)
  | attribute (name value : Text)
  /-- The end of a start tag, with a slash where no end tag follows. -/
  | ending (slash : Bool)
  | closing (name : Text)
  /-- A comment, a declaration or another construct with delimiters of its own. -/
  | note (text : Text)
  /-- A part of content where white space counts. -/
  | kept (text : Text)
  /-- Text with spaces only inside. -/
  | run (text : Text)
  /-- A space at the end of a text. -/
  | blank
  /-- The content of an element with raw content. -/
  | raw (name body : Text)
  deriving DecidableEq, Repr

namespace Piece

/-- The text of a piece. -/
def text : Piece → Text
  | .opening name => '<' :: name
  | .attribute name value => attributeText name value
  | .ending slash => endingText slash
  | .closing name => endTag name
  | .note t | .kept t | .run t => t
  | .blank => [' ']
  | .raw _ body => body

/-- Whether a piece is a space at the end of a text. -/
def isBlank : Piece → Bool
  | .blank => true
  | _ => false

/-- Whether a piece has white space before it wherever it stands. -/
def isSpaced : Piece → Bool
  | .attribute _ _ => true
  | .ending slash => slash
  | _ => false

/-- A piece as it stands on one line. -/
def inLine (p : Piece) : Text := (if p.isSpaced then [' '] else []) ++ p.text

end Piece

/-- Pieces side by side. -/
def oneLine (ps : List Piece) : Text := ps.flatMap Piece.inLine

@[simp] theorem oneLine_nil : oneLine [] = [] := rfl

@[simp] theorem oneLine_cons (p : Piece) (ps : List Piece) :
    oneLine (p :: ps) = p.inLine ++ oneLine ps := List.flatMap_cons

@[simp] theorem oneLine_append (ps qs : List Piece) : oneLine (ps ++ qs) = oneLine ps ++ oneLine qs :=
  List.flatMap_append

@[simp] theorem oneLine_blanks (n : Nat) :
    oneLine (List.replicate n .blank) = List.replicate n ' ' := by
  induction n with
  | zero => rfl
  | succ n ih => rw [List.replicate_succ, oneLine_cons, ih]; rfl

/-! ## The pieces of nodes -/

/-- The pieces of a text: its visible part and the spaces at its ends. -/
def textPieces (t : Text) : List Piece :=
  List.replicate (t.takeWhile (· == ' ')).length .blank ++
    (if t.trimSpaces.isEmpty then [] else [.run t.trimSpaces]) ++
    List.replicate ((t.dropWhile (· == ' ')).rtakeWhile (· == ' ')).length .blank

/-- The pieces of a start tag. -/
def tagPieces (name : Text) (attributes : Attributes) (slash : Bool) : List Piece :=
  .opening name :: attributes.map (fun (name, value) => .attribute name value) ++ [.ending slash]

mutual

/-- The pieces of a node where white space counts: a start tag, an end tag or anything else. -/
def keptPieces (raw : Bool) : Node → List Piece
  | .element name attributes children =>
      let start := '<' :: name ++ verbatimAttributes (withOutputEncoding name attributes)
      if children.isEmpty && selfClosingElements.elem name then [.kept (start ++ "/>")]
      else
        .kept (start ++ ">") :: keptPiecesAll (rawElements.elem name) children ++
          [.kept (endTag name)]
  | node => [.kept (verbatim raw node)]

/-- The pieces of nodes where white space counts. -/
def keptPiecesAll (raw : Bool) : List Node → List Piece
  | [] => []
  | node :: rest => keptPieces raw node ++ keptPiecesAll raw rest

end

mutual

/-- The pieces of a node. -/
def pieces : Node → List Piece
  | .text t => textPieces (Text.escapeContent (collapse t))
  | .element name attributes children =>
      if voidElements.elem name then tagPieces name attributes true
      else
        let body :=
          if verbatimElements.elem name then keptPiecesAll false children
          else if rawElements.elem name then [.raw name (rawBody children)]
          else piecesAll children
        tagPieces name attributes false ++ body ++ [.closing name]
  | node => [.note (inline node)]

/-- The pieces of nodes. -/
def piecesAll : List Node → List Piece
  | [] => []
  | node :: rest => pieces node ++ piecesAll rest

end

theorem piecesAll_append (ns ms : List Node) : piecesAll (ns ++ ms) = piecesAll ns ++ piecesAll ms := by
  induction ns with
  | nil => rfl
  | cons n rest ih => simp [piecesAll, ih]

theorem keptPiecesAll_append (raw : Bool) (ns ms : List Node) :
    keptPiecesAll raw (ns ++ ms) = keptPiecesAll raw ns ++ keptPiecesAll raw ms := by
  induction ns with
  | nil => rfl
  | cons n rest ih => simp [keptPiecesAll, ih]

mutual

/-- Where white space counts no space is a piece of its own. -/
theorem visible_keptPieces (raw : Bool) : ∀ n : Node, ∀ p ∈ keptPieces raw n, p.isBlank = false
  | .element name attributes children => by
    have inside := visible_keptPiecesAll (rawElements.elem name) children
    intro p member
    rw [keptPieces] at member
    split at member
    · obtain rfl := List.mem_singleton.mp member
      rfl
    · simp only [List.mem_append, List.mem_cons, List.not_mem_nil, or_false] at member
      rcases member with (rfl | below) | rfl
      · rfl
      · exact inside p below
      · rfl
  | .text _ | .comment _ | .doctype _ | .data _ | .declaration _ | .instruction _ => by
    simp [keptPieces, Piece.isBlank]

theorem visible_keptPiecesAll (raw : Bool) : ∀ ns : List Node,
    ∀ p ∈ keptPiecesAll raw ns, p.isBlank = false
  | [] => by simp [keptPiecesAll]
  | n :: rest => by
    intro p member
    rw [keptPiecesAll] at member
    rcases List.mem_append.mp member with here | later
    · exact visible_keptPieces raw n p here
    · exact visible_keptPiecesAll raw rest p later

end

/-! ## Nodes on one line -/

theorem takeWhile_space (t : Text) :
    t.takeWhile (· == ' ') = List.replicate (t.takeWhile (· == ' ')).length ' ' :=
  List.eq_replicate_of_mem fun c member => by simpa using List.mem_takeWhile_imp member

theorem rtakeWhile_space (t : Text) :
    t.rtakeWhile (· == ' ') = List.replicate (t.rtakeWhile (· == ' ')).length ' ' :=
  List.eq_replicate_of_mem fun c member => by simpa using List.mem_rtakeWhile_imp member

theorem oneLine_textPieces (t : Text) : oneLine (textPieces t) = t := by
  have inner : oneLine (if t.trimSpaces.isEmpty then [] else [.run t.trimSpaces]) = t.trimSpaces := by
    split
    · next empty => exact (List.isEmpty_iff.mp empty).symm
    · simp [Piece.inLine, Piece.isSpaced, Piece.text]
  have ends : t.trimSpaces ++ (t.dropWhile (· == ' ')).rtakeWhile (· == ' ') = t.dropWhile (· == ' ') :=
    List.rdropWhile_append_rtakeWhile
  rw [textPieces, oneLine_append, oneLine_append, oneLine_blanks, oneLine_blanks, inner,
    ← takeWhile_space, ← rtakeWhile_space, List.append_assoc, ends, List.takeWhile_append_dropWhile]

theorem oneLine_tagPieces (name : Text) (attributes : Attributes) (slash : Bool) :
    oneLine (tagPieces name attributes slash) = startTag name attributes (tagEnding slash) := by
  have slots : oneLine (attributes.map fun (name, value) => .attribute name value) =
      (attributeTexts attributes).flatMap (' ' :: ·) := by
    rw [oneLine, attributeTexts, List.flatMap_map, List.flatMap_map]
    rfl
  have ending : (Piece.ending slash).inLine = tagEnding slash := by
    cases slash <;> rfl
  rw [tagPieces, oneLine_append, oneLine_cons, slots, startTag, ← ending]
  simp [Piece.inLine, Piece.isSpaced, Piece.text]

mutual

/-- The pieces of a node are what is written of it where white space counts. -/
theorem oneLine_keptPieces (raw : Bool) : ∀ n : Node, oneLine (keptPieces raw n) = verbatim raw n
  | .element name attributes children => by
    have whole (t : Text) : (Piece.kept t).inLine = t := rfl
    have inside := oneLine_keptPiecesAll (rawElements.elem name) children
    have written : verbatim raw (.element name attributes children) =
        if (children.isEmpty && selfClosingElements.elem name) = true then
          '<' :: name ++ verbatimAttributes (withOutputEncoding name attributes) ++ "/>"
        else
          '<' :: name ++ verbatimAttributes (withOutputEncoding name attributes) ++ ">" ++
            verbatimAll (rawElements.elem name) children ++ "</" ++ name ++ ">" := rfl
    rw [keptPieces, written]
    by_cases closes : (children.isEmpty && selfClosingElements.elem name) = true
    · rw [if_pos closes, if_pos closes, oneLine_cons, oneLine_nil, whole, List.append_nil]
    · rw [if_neg closes, if_neg closes, oneLine_append, oneLine_cons, oneLine_cons, oneLine_nil, whole,
        whole, inside]
      simp [endTag]
  | .text _ | .comment _ | .doctype _ | .data _ | .declaration _ | .instruction _ => by
    simp [keptPieces, Piece.inLine, Piece.isSpaced, Piece.text]

theorem oneLine_keptPiecesAll (raw : Bool) : ∀ ns : List Node,
    oneLine (keptPiecesAll raw ns) = verbatimAll raw ns
  | [] => rfl
  | n :: rest => by
    rw [keptPiecesAll, oneLine_append, oneLine_keptPieces raw n, oneLine_keptPiecesAll raw rest,
      verbatimAll]

end

mutual

/-- The pieces of a node side by side are the node on one line. -/
theorem oneLine_pieces : ∀ n : Node, oneLine (pieces n) = inline n
  | .text t => by rw [pieces, oneLine_textPieces, inline]
  | .comment _ | .doctype _ | .data _ | .declaration _ | .instruction _ => by
    simp [pieces, Piece.inLine, Piece.isSpaced, Piece.text]
  | .element name attributes children => by
    have closing : (Piece.closing name).inLine = endTag name := rfl
    rw [pieces, inline]
    split
    · exact oneLine_tagPieces name attributes true
    · rw [oneLine_append, oneLine_append, oneLine_tagPieces]
      dsimp only
      split
      · simp [oneLine_keptPiecesAll, closing, tagEnding]
      · split
        · simp [tagEnding, Piece.inLine, Piece.isSpaced, Piece.text]
        · simp [oneLine_piecesAll children, closing, tagEnding]

/-- The pieces of nodes side by side are the nodes on one line. -/
theorem oneLine_piecesAll : ∀ ns : List Node, oneLine (piecesAll ns) = inlineAll ns
  | [] => by rw [piecesAll, inlineAll, oneLine_nil]
  | n :: rest => by
    rw [piecesAll, inlineAll, oneLine_append, oneLine_pieces n, oneLine_piecesAll rest]

end

/-! ## The ends of content -/

/-- The pieces that are not spaces at the end of a text. -/
def shown (ps : List Piece) : List Piece := ps.filter (!·.isBlank)

@[simp] theorem shown_append (ps qs : List Piece) : shown (ps ++ qs) = shown ps ++ shown qs :=
  List.filter_append ..

@[simp] theorem shown_blanks (n : Nat) : shown (List.replicate n .blank) = [] :=
  List.filter_replicate_of_neg (by simp [Piece.isBlank])

theorem shown_singleton {p : Piece} (visible : p.isBlank = false) : shown [p] = [p] := by
  simp [shown, visible]

/-- Whether the visible pieces start and end with characters that trimming spaces keeps. -/
structure Ended (ps : List Piece) : Prop where
  first : ∀ p ∈ (shown ps).head?, p.isSpaced = false ∧ ∃ c ∈ p.text.head?, (c == ' ') = false
  last : ∀ p ∈ (shown ps).getLast?, ∃ c ∈ p.text.getLast?, (c == ' ') = false

theorem Ended.nil : Ended [] := ⟨by simp [shown], by simp [shown]⟩

theorem Ended.append {ps qs : List Piece} (left : Ended ps) (right : Ended qs) : Ended (ps ++ qs) where
  first p member := by
    rw [shown_append, List.head?_append] at member
    rcases Option.or_eq_some_iff.mp member with here | ⟨-, here⟩
    · exact left.first p here
    · exact right.first p here
  last p member := by
    rw [shown_append, List.getLast?_append] at member
    rcases Option.or_eq_some_iff.mp member with here | ⟨-, here⟩
    · exact right.last p here
    · exact left.last p here

theorem ended_textPieces (t : Text) : Ended (textPieces t) := by
  have visible : shown (textPieces t) = if t.trimSpaces.isEmpty then [] else [.run t.trimSpaces] := by
    unfold textPieces
    split <;> simp [shown, Piece.isBlank]
  have head : ∀ c ∈ t.trimSpaces.head?, (c == ' ') = false := fun c first =>
    head?_dropWhile t c (mem_head?_of_start (List.rdropWhile_prefix _ _) c first)
  have last : ∀ c ∈ t.trimSpaces.getLast?, (c == ' ') = false := getLast?_rdropWhile _
  by_cases none : t.trimSpaces = []
  · rw [none] at visible
    exact ⟨by simp [visible], by simp [visible]⟩
  · rw [if_neg (mt List.isEmpty_iff.mp none)] at visible
    constructor
    · intro p member
      obtain rfl : .run t.trimSpaces = p := by simpa [visible] using member
      exact ⟨rfl, _, List.head?_eq_some_head none, head _ (List.head?_eq_some_head none)⟩
    · intro p member
      obtain rfl : .run t.trimSpaces = p := by simpa [visible] using member
      exact ⟨_, List.getLast?_eq_some_getLast none, last _ (List.getLast?_eq_some_getLast none)⟩

/-- Pieces from a first one to a last one are ended when those are. -/
theorem ended_around {p q : Piece} (ps : List Piece) (first : p.text.head? = some '<')
    (plain : p.isSpaced = false) (last : q.text.getLast? = some '>') (visible : p.isBlank = false)
    (shows : q.isBlank = false) : Ended (p :: ps ++ [q]) where
  first r member := by
    obtain rfl : p = r := by simpa [shown, visible] using member
    exact ⟨plain, '<', first, by decide⟩
  last r member := by
    rw [shown_append, shown_singleton shows, List.getLast?_concat] at member
    obtain rfl := Option.some.inj member
    exact ⟨'>', last, by decide⟩

/-- A construct with delimiters of its own starts and ends with them. -/
theorem ended_note {x y z : Text} (starts : x = '<' :: y) (ends : x = z ++ ['>']) :
    Ended [.note x] where
  first r member := by
    obtain rfl : .note x = r := by simpa [shown, Piece.isBlank] using member
    exact ⟨rfl, '<', by rw [Piece.text, starts]; rfl, by decide⟩
  last r member := by
    obtain rfl : .note x = r := by simpa [shown, Piece.isBlank] using member
    exact ⟨'>', by rw [Piece.text, ends]; simp, by decide⟩

theorem ended_commentText (t : Text) : Ended [.note (commentText t)] := by
  unfold commentText
  split
  · exact ended_note (z := "<!----") rfl rfl
  · exact ended_note (z := "<!-- " ++ t.trim ++ [' ', '-', '-']) rfl (by simp)

mutual

theorem ended_pieces : ∀ n : Node, Ended (pieces n)
  | .text t => by
    rw [pieces]
    exact ended_textPieces _
  | .comment t => by
    rw [pieces, inline]
    · exact ended_commentText t
    all_goals simp
  | .doctype t => by
    rw [pieces, inline]
    · exact ended_note rfl rfl
    all_goals simp
  | .data t => ended_note (x := verbatim false (.data t)) (z := "<![CDATA[" ++ t ++ [']', ']']) rfl
      (by rw [List.append_assoc]; rfl)
  | .declaration t => ended_note (x := verbatim false (.declaration t)) (z := "<?" ++ t ++ ['?']) rfl
      (by rw [List.append_assoc]; rfl)
  | .instruction t => ended_note (x := verbatim false (.instruction t)) rfl rfl
  | .element name attributes children => by
    have tag : (endTag name).getLast? = some '>' := List.getLast?_concat
    rw [pieces]
    split
    · exact ended_around _ rfl rfl rfl rfl rfl
    · exact ended_around _ rfl rfl tag rfl rfl

theorem ended_piecesAll : ∀ ns : List Node, Ended (piecesAll ns)
  | [] => .nil
  | n :: rest => by
    rw [piecesAll]
    exact (ended_pieces n).append (ended_piecesAll rest)

end

end StaticSite.Markup
