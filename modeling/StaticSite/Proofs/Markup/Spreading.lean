import StaticSite.Proofs.Markup.Piece
import StaticSite.Proofs.Markup.RawLines

/-! # Layouts as spread pieces

A layout of markup is its pieces with other white space between them. Between two pieces stands what
stands there on one line, or nothing at an end of content, or a line break with an indentation where
tags and constructs meet. The pieces themselves stay as they are, but for the content of raw
elements, which is moved by lines.
-/

namespace StaticSite.Markup

open Stylesheet (written written_cons)

/-! ## Seams -/

/-- Where a layout is: the piece that was written last, none at the start of the document, and the
number of spaces of the text since then. -/
structure Front where
  behind : Option Piece
  blanks : Nat
  deriving DecidableEq, Repr

namespace Front

/-- The start of a document. -/
def start : Front := ⟨none, 0⟩

/-- The front right behind a piece. -/
def after (p : Piece) : Front := ⟨some p, 0⟩

/-- The spaces since the last piece. -/
def gap (f : Front) : Text := List.replicate f.blanks ' '

/-- Whether anything has been written. -/
def begun (f : Front) : Bool := f.behind.isSome

/-- Whether content starts here. -/
def opens (f : Front) : Bool := f.behind.all (· == .ending false)

end Front

namespace Piece

/-- Whether content ends before a piece. -/
def closes : Piece → Bool
  | .closing _ => true
  | _ => false

/-- Whether a line may start before a piece and end behind it: parts of tags and constructs with
delimiters of their own. -/
def breaks : Piece → Bool
  | .opening _ | .attribute _ _ | .ending _ | .closing _ | .note _ => true
  | _ => false

/-- What is written of a piece. -/
inductive WrittenAs (style : Style) : Piece → Text → Prop
  | same (p : Piece) : WrittenAs style p p.text
  | empty {name body : Text} (blank : body.isBlank = true) : WrittenAs style (.raw name body) []
  | moved {name body : Text} {ls : List Text} (depth : Nat) (other : name ≠ "style")
      (shifted : Shifted body ls) :
      WrittenAs style (.raw name body) (ls.flatMap ('\n' :: ·) ++ '\n' :: style.indent depth)
  | sheet {body out : Text} (depth : Nat) (laid : Stylesheet.format style body = .ok out) :
      WrittenAs style (.raw "style" body)
        (((Text.lines out.dropLast).map (indented (style.indent (depth + 1)))).flatMap ('\n' :: ·) ++
          '\n' :: style.indent depth)

end Piece

/-- What stands between a front and the next piece. -/
inductive Seam (style : Style) (f : Front) (p : Piece) : Text → Prop
  /-- What stands there on one line. -/
  | line : Seam style f p (f.gap ++ if p.isSpaced then [' '] else [])
  /-- Nothing at an end of content. -/
  | edge (ends : f.opens = true ∨ p.closes = true) (plain : p.isSpaced = false) : Seam style f p []
  /-- A line break and an indentation. -/
  | broken (depth : Nat) (before : f.behind.any Piece.breaks = true) (after : p.breaks = true) :
      Seam style f p ('\n' :: style.indent depth)

/-- A text that consists of pieces, each once and in their order, from a front to a front. -/
inductive Spreads (style : Style) : Front → List Piece → Text → Front → Prop
  | nil (f : Front) : Spreads style f [] [] f
  | blank {f g : Front} {ps : List Piece} {t : Text}
      (rest : Spreads style ⟨f.behind, f.blanks + 1⟩ ps t g) : Spreads style f (.blank :: ps) t g
  | piece {f g : Front} {p : Piece} {ps : List Piece} {s w t : Text} (visible : p.isBlank = false)
      (seam : Seam style f p s) (written : p.WrittenAs style w)
      (rest : Spreads style (.after p) ps t g) : Spreads style f (p :: ps) (s ++ w ++ t) g

variable {style : Style}

theorem Spreads.append {f g h : Front} {ps qs : List Piece} {s t : Text}
    (first : Spreads style f ps s g) (second : Spreads style g qs t h) :
    Spreads style f (ps ++ qs) (s ++ t) h := by
  induction first with
  | nil f => exact second
  | blank rest ih => exact .blank (ih second)
  | piece visible seam written rest ih =>
    rw [List.append_assoc]
    exact .piece visible seam written (ih second)

theorem Spreads.single {f : Front} {p : Piece} {s w : Text} (visible : p.isBlank = false)
    (seam : Seam style f p s) (written : p.WrittenAs style w) :
    Spreads style f [p] (s ++ w) (.after p) := by
  have one := Spreads.piece visible seam written (.nil (.after p))
  rwa [List.append_nil] at one

/-! ## Content on one line -/

theorem Piece.eq_blank {p : Piece} (blank : p.isBlank = true) : p = .blank := by
  cases p <;> first | rfl | cases blank

/-- Pieces can stand as they do on one line. -/
theorem exists_spreads_line (style : Style) (f : Front) (ps : List Piece) :
    ∃ t g, Spreads style f ps t g ∧ f.gap ++ oneLine ps = t ++ g.gap := by
  induction ps generalizing f with
  | nil => exact ⟨[], f, .nil f, List.append_nil _⟩
  | cons p rest ih =>
    by_cases blank : p.isBlank = true
    · obtain rfl := Piece.eq_blank blank
      obtain ⟨t, g, spreads, same⟩ := ih ⟨f.behind, f.blanks + 1⟩
      refine ⟨t, g, .blank spreads, ?_⟩
      have blanks : Front.gap ⟨f.behind, f.blanks + 1⟩ = f.gap ++ [' '] := List.replicate_succ'
      rw [← same, blanks, List.append_assoc]
      rfl
    · obtain ⟨t, g, spreads, same⟩ := ih (.after p)
      refine ⟨_, g, .piece (by simpa using blank) .line (.same p) spreads, ?_⟩
      have rest : oneLine rest = t ++ g.gap := same
      rw [oneLine_cons, rest, Piece.inLine]
      simp only [List.append_assoc]

/-- Pieces with a visible one at their end can stand as they do on one line. -/
theorem spreads_line_concat (style : Style) (f : Front) (ps : List Piece) {p : Piece}
    (visible : p.isBlank = false) :
    Spreads style f (ps ++ [p]) (f.gap ++ oneLine (ps ++ [p])) (.after p) := by
  obtain ⟨t, g, spreads, same⟩ := exists_spreads_line style f ps
  have whole := spreads.append (.single visible .line (.same p))
  rw [oneLine_append, ← List.append_assoc, same]
  simpa [Piece.inLine] using whole

/-- Spaces at the start of content can go. -/
theorem spreads_edge_concat (style : Style) {f : Front} (opens : f.opens = true) (ps : List Piece)
    {p : Piece} (visible : p.isBlank = false)
    (first : ∀ q ∈ (shown (ps ++ [p])).head?,
      q.isSpaced = false ∧ ∃ c ∈ q.text.head?, (c == ' ') = false) :
    Spreads style f (ps ++ [p]) ((oneLine (ps ++ [p])).dropWhile (· == ' ')) (.after p) := by
  have keeps {q : Piece} (plain : q.isSpaced = false)
      (starts : ∃ c ∈ q.text.head?, (c == ' ') = false) (t : Text) :
      (q.inLine ++ t).dropWhile (· == ' ') = q.text ++ t := by
    obtain ⟨c, head, visible⟩ := starts
    obtain ⟨rest, text⟩ := List.head?_eq_some_iff.mp head
    rw [Piece.inLine, plain, text]
    exact List.dropWhile_cons_of_neg (by simp [visible])
  induction ps generalizing f with
  | nil =>
    obtain ⟨plain, starts⟩ := first p (by rw [List.nil_append, shown_singleton visible]; rfl)
    have one := keeps plain starts []
    rw [List.nil_append, oneLine_cons, oneLine_nil, one, List.append_nil]
    exact .single visible (.edge (.inl opens) plain) (.same p)
  | cons q rest ih =>
    by_cases blank : q.isBlank = true
    · obtain rfl := Piece.eq_blank blank
      exact .blank (ih opens first)
    · have here : q.isBlank = false := by simpa using blank
      obtain ⟨plain, starts⟩ := first q (by simp [shown, here])
      rw [List.cons_append, oneLine_cons, keeps plain starts]
      exact .piece here (.edge (.inl opens) plain) (.same q) (spreads_line_concat style (.after q) rest visible)

theorem spreads_blanks (f : Front) (n : Nat) :
    Spreads style f (List.replicate n .blank) [] ⟨f.behind, f.blanks + n⟩ := by
  induction n generalizing f with
  | zero => exact .nil f
  | succ n ih =>
    have more := ih ⟨f.behind, f.blanks + 1⟩
    rw [Nat.add_right_comm, Nat.add_assoc] at more
    exact .blank more

/-- Pieces are spaces, or have a last visible one. -/
theorem exists_last_visible (ps : List Piece) : (∃ n, ps = List.replicate n .blank) ∨
    ∃ qs p n, ps = qs ++ [p] ++ List.replicate n .blank ∧ p.isBlank = false := by
  induction ps with
  | nil => exact .inl ⟨0, rfl⟩
  | cons q rest ih =>
    rcases ih with ⟨n, rfl⟩ | ⟨qs, p, n, rfl, visible⟩
    · by_cases blank : q.isBlank = true
      · obtain rfl := Piece.eq_blank blank
        exact .inl ⟨n + 1, rfl⟩
      · exact .inr ⟨[], q, n, rfl, by simpa using blank⟩
    · exact .inr ⟨q :: qs, p, n, rfl, visible⟩

/-- Spaces behind a visible end are trimmed and nothing else is at that end. -/
theorem trimSpaces_append_spaces {t : Text} {c : Char} (last : c ∈ t.getLast?)
    (kept : (c == ' ') = false) (n : Nat) :
    Text.trimSpaces (t ++ List.replicate n ' ') = t.dropWhile (· == ' ') := by
  change List.rdropWhile _ (List.dropWhile _ _) = _
  rw [dropWhile_append_of_exists ⟨c, List.mem_of_mem_getLast? last, kept⟩,
    rdropWhile_append_of_forall (by simp)]
  exact rdropWhile_of_getLast? fun d ends =>
    Option.mem_unique (mem_getLast?_of_ending (List.dropWhile_suffix _) d ends) last ▸ kept

/-- Content with a visible end loses the spaces behind that end, and those at its start. -/
theorem trimSpaces_oneLine {qs : List Piece} {p : Piece} {n : Nat}
    (ended : Ended (qs ++ [p] ++ List.replicate n .blank)) (visible : p.isBlank = false) :
    (∃ c ∈ (oneLine (qs ++ [p])).getLast?, (c == ' ') = false) ∧
      (oneLine (qs ++ [p] ++ List.replicate n .blank)).trimSpaces =
        (oneLine (qs ++ [p])).dropWhile (· == ' ') := by
  obtain ⟨c, last, kept⟩ := ended.last p (by
    rw [shown_append, shown_blanks, List.append_nil, shown_append, shown_singleton visible]
    exact List.getLast?_concat)
  have final : c ∈ (oneLine (qs ++ [p])).getLast? := by
    obtain ⟨front, text⟩ := List.getLast?_eq_some_iff.mp last
    simp [Piece.inLine, text]
  refine ⟨⟨c, final, kept⟩, ?_⟩
  rw [oneLine_append, oneLine_blanks, trimSpaces_append_spaces final kept]

/-- Content loses the spaces at its ends. -/
theorem exists_spreads_content (style : Style) {f : Front} (opens : f.opens = true) {ps : List Piece}
    (ended : Ended ps) : ∃ g, Spreads style f ps (oneLine ps).trimSpaces g ∧
      (g.behind = f.behind ∧ (oneLine ps).trimSpaces = [] ∨
        g.begun = true ∧ (oneLine ps).trimSpaces ≠ []) := by
  rcases exists_last_visible ps with ⟨n, rfl⟩ | ⟨qs, p, n, rfl, visible⟩
  · have none : (oneLine (List.replicate n .blank)).trimSpaces = [] := by
      have all : ∀ c ∈ List.replicate n ' ', (c == ' ') = true := by simp
      rw [oneLine_blanks]
      exact (congrArg _ (List.dropWhile_eq_nil_iff.mpr all)).trans rfl
    rw [none]
    exact ⟨_, spreads_blanks f n, .inl ⟨rfl, rfl⟩⟩
  · obtain ⟨⟨c, final, kept⟩, trimmed⟩ := trimSpaces_oneLine ended visible
    have ends : shown (qs ++ [p] ++ List.replicate n .blank) = shown (qs ++ [p]) := by
      rw [shown_append, shown_blanks, List.append_nil]
    have content := spreads_edge_concat style opens qs visible (ends ▸ ended.first)
    have whole := content.append (spreads_blanks (.after p) n)
    rw [trimmed]
    rw [List.append_nil] at whole
    refine ⟨_, whole, .inr ⟨rfl, fun none => ?_⟩⟩
    rw [List.dropWhile_eq_nil_iff.mp none c (List.mem_of_mem_getLast? final)] at kept
    cases kept

/-! ## Lines -/

/-- Lines below what has been written, or at the start of the document. -/
def stacked : Bool → List Text → Text
  | _, [] => []
  | begun, l :: ls => (if begun then ['\n'] else []) ++ l ++ stacked true ls

theorem stacked_append (begun : Bool) (ls ms : List Text) :
    stacked begun (ls ++ ms) = stacked begun ls ++ stacked (begun || !ls.isEmpty) ms := by
  induction ls generalizing begun with
  | nil => simp [stacked]
  | cons l rest ih => simp [stacked, ih]

theorem stacked_true (ls : List Text) : stacked true ls = ls.flatMap ('\n' :: ·) := by
  induction ls with
  | nil => rfl
  | cons l rest ih => rw [stacked, ih]; rfl

/-- Behind other lines a newline stands before each line. -/
theorem stacked_append_of_ne_nil (begun : Bool) {ls : List Text} (some : ls ≠ []) (ms : List Text) :
    stacked begun (ls ++ ms) = stacked begun ls ++ ms.flatMap ('\n' :: ·) := by
  obtain ⟨l, rest, rfl⟩ := List.exists_cons_of_ne_nil some
  rw [stacked_append, List.isEmpty_cons, Bool.not_false, Bool.or_true, stacked_true]

theorem stacked_appendToLast (begun : Bool) {ls : List Text} (some : ls ≠ []) (t : Text) :
    stacked begun (appendToLast t ls) = stacked begun ls ++ t := by
  obtain ⟨before, last, rfl⟩ := List.eq_nil_or_concat ls |>.resolve_left some
  rw [List.concat_eq_append, appendToLast_concat, stacked_append, stacked_append]
  simp [stacked]

/-- Lines with a newline at the end of each, from the start of the document. -/
theorem written_eq_stacked {ls : List Text} (some : ls ≠ []) :
    written ls = stacked false ls ++ ['\n'] := by
  obtain ⟨l, rest, rfl⟩ := List.exists_cons_of_ne_nil some
  rw [written_cons, newline_written, stacked, stacked_true]
  simp

/-- Whether lines of a depth may follow: behind a piece that a line may end with, or at the start
of the document. -/
def Front.Ready (f : Front) (depth : Nat) : Prop :=
  match f.behind with
  | none => depth = 0
  | some p => p.breaks = true

/-- A line that starts with a part of a tag or with a construct may follow where lines may. -/
theorem Front.Ready.seam {f : Front} {depth : Nat} (ready : f.Ready depth) {p : Piece}
    (breaks : p.breaks = true) (plain : p.isSpaced = false) :
    Seam style f p ((if f.begun then ['\n'] else []) ++ style.indent depth) := by
  obtain ⟨behind, blanks⟩ := f
  cases behind with
  | none =>
    obtain rfl : depth = 0 := ready
    exact .edge (.inl rfl) plain
  | some q => exact .broken depth ready breaks

/-- A line may end where lines may follow, below the start of the document. -/
theorem Front.Ready.breaks {f : Front} {depth : Nat} (ready : f.Ready depth) (begun : f.begun = true) :
    f.behind.any Piece.breaks = true := by
  obtain ⟨behind, blanks⟩ := f
  cases behind with
  | none => cases begun
  | some p => exact ready

/-! ## Start tags -/

/-- Each attribute may stand on a line of its own. -/
theorem spreads_attributes (style : Style) (depth : Nat) (attributes : Attributes) (slash : Bool)
    {p : Piece} (breaks : p.breaks = true) :
    Spreads style (.after p)
      (attributes.map (fun (name, value) => .attribute name value) ++ [.ending slash])
      (((attributeTexts attributes).map (style.indent (depth + 1) ++ ·)).flatMap ('\n' :: ·) ++
        '\n' :: style.indent depth ++ endingText slash) (.after (.ending slash)) := by
  induction attributes generalizing p with
  | nil => exact .single rfl (.broken depth breaks rfl) (.same _)
  | cons first rest ih =>
    have seam : Seam style (.after p) (.attribute first.1 first.2) _ := .broken (depth + 1) breaks rfl
    have line := Spreads.piece rfl seam (.same _) (ih rfl)
    simpa [attributeTexts, Piece.text] using line

theorem spreads_startLines (style : Style) {f : Front} {depth : Nat} (ready : f.Ready depth)
    (name : Text) (attributes : Attributes) (slash : Bool) :
    Spreads style f (tagPieces name attributes slash)
      (stacked f.begun (startLines style depth name attributes (tagEnding slash)))
      (.after (.ending slash)) := by
  have seam : Seam style f (.opening name) _ := ready.seam rfl rfl
  unfold startLines
  dsimp only
  split
  · have inner := spreads_line_concat style (.after (.opening name))
      (attributes.map fun (name, value) => .attribute name value) (p := .ending slash) rfl
    have whole := Spreads.piece rfl seam (.same _) inner
    have line : startTag name attributes (tagEnding slash) = '<' :: name ++ oneLine
        (attributes.map (fun (name, value) => .attribute name value) ++ [.ending slash]) := by
      rw [← oneLine_tagPieces, tagPieces, List.cons_append, oneLine_cons]
      rfl
    rw [line]
    simpa [stacked, Front.gap, Front.after, Piece.text, tagPieces] using whole
  · have inner := spreads_attributes style depth attributes slash (p := .opening name) rfl
    have whole := Spreads.piece rfl seam (.same _) inner
    have ending : (tagEnding slash).trim = endingText slash := by
      cases slash <;> decide
    have lines (l : Text) (ls ms : List Text) : stacked f.begun (l :: ls ++ ms) =
        (if f.begun then ['\n'] else []) ++ l ++ (ls ++ ms).flatMap ('\n' :: ·) := by
      rw [List.cons_append, stacked, stacked_true]
    rw [lines, ending]
    simpa [Piece.text, tagPieces] using whole

/-- Pieces without spaces behind a piece can stand as they do on one line. -/
theorem exists_spreads_visible (style : Style) (p : Piece) {ps : List Piece}
    (visible : ∀ q ∈ ps, q.isBlank = false) :
    ∃ q, Spreads style (.after p) ps (oneLine ps) (.after q) := by
  induction ps generalizing p with
  | nil => exact ⟨p, .nil _⟩
  | cons first rest ih =>
    obtain ⟨here, others⟩ := List.forall_mem_cons.mp visible
    obtain ⟨q, spreads⟩ := ih first others
    exact ⟨q, .piece here .line (.same first) spreads⟩

/-! ## Elements -/

/-- Whether lines of a depth are pieces, wherever lines of that depth may follow. -/
def Lays (style : Style) (depth : Nat) (ps : List Piece) (ls : List Text) : Prop :=
  ∀ f : Front, f.Ready depth → ∃ g, Spreads style f ps (stacked f.begun ls) g ∧ g.Ready depth ∧
    g.begun = (f.begun || !ls.isEmpty)

theorem Lays.append {depth : Nat} {ps qs : List Piece} {ls ms : List Text}
    (first : Lays style depth ps ls) (second : Lays style depth qs ms) :
    Lays style depth (ps ++ qs) (ls ++ ms) := by
  intro f ready
  obtain ⟨g, spreads, between, begun⟩ := first f ready
  obtain ⟨h, others, behind, written⟩ := second g between
  refine ⟨h, ?_, behind, ?_⟩
  · rw [stacked_append, ← begun]
    exact spreads.append others
  · rw [written, begun]
    cases ls <;> simp

/-- The content of a raw element stands on lines of its own, moved. -/
theorem exists_written_raw {depth : Nat} {name body : Text} (raw : name ∈ rawElements)
    {ls : List Text} (laid : rawLines style depth name body = .ok ls) :
    (Piece.raw name body).WrittenAs style (ls.flatMap ('\n' :: ·) ++ '\n' :: style.indent depth) := by
  unfold rawLines at laid
  split at laid
  · next template =>
    obtain rfl := Except.ok.inj laid
    refine .moved depth ?_ (shifted_trimLines body)
    rintro rfl
    simp [holdsTemplate] at template
  · split at laid
    · next styled =>
      subst styled
      split at laid
      · next out formatted =>
        obtain rfl := Except.ok.inj laid
        rw [movedLines_of_format formatted]
        exact .sheet depth formatted
      · cases laid
    · next other =>
      obtain rfl := Except.ok.inj laid
      exact .moved depth other
        (shifted_movedLines (fun c => Stylesheet.isBlank_of_mem_indent) body)

/-! ## Nodes -/

theorem lays_blanks (depth n : Nat) : Lays style depth (List.replicate n .blank) [] :=
  fun f ready => ⟨_, spreads_blanks f n, ready, by simp [Front.begun]⟩

/-- Text that does not show is spaces. -/
theorem exists_blanks_text {t : Text} (blank : t.all isMarkupBlank = true) :
    ∃ n, pieces (.text t) = List.replicate n .blank := by
  have none : collapse t = if t.isEmpty then [] else [' '] :=
    Text.squeeze_of_all (List.all_eq_true.mp blank)
  rw [pieces, none]
  split
  · exact ⟨0, rfl⟩
  · exact ⟨1, rfl⟩

theorem exists_blanks {ns : List Node} (blank : ns.all Node.isBlank = true) :
    ∃ n, piecesAll ns = List.replicate n .blank := by
  induction ns with
  | nil => exact ⟨0, rfl⟩
  | cons first rest ih =>
    rw [List.all_cons, Bool.and_eq_true] at blank
    obtain ⟨n, others⟩ := ih blank.2
    cases first with
    | text t =>
      obtain ⟨m, here⟩ := exists_blanks_text blank.1
      exact ⟨m + n, by rw [piecesAll, here, others, List.replicate_append_replicate]⟩
    | _ => cases blank.1

theorem lays_note (depth : Nat) (t : Text) :
    Lays style depth [.note t] [style.indent depth ++ t] := by
  intro f ready
  have one : Spreads style f [.note t] _ _ := .single rfl (ready.seam rfl rfl) (.same _)
  refine ⟨.after (.note t), ?_, rfl, by simp [Front.begun, Front.after]⟩
  simpa [stacked, Piece.text] using one

/-- Pieces up to one that a line may end with are lines when they are spread as such. -/
theorem Lays.of_spreads {depth : Nat} {ps : List Piece} {ls : List Text} {p : Piece} (some : ls ≠ [])
    (breaks : p.breaks = true) (spreads : ∀ f : Front, f.Ready depth →
      Spreads style f ps (stacked f.begun ls) (.after p)) : Lays style depth ps ls := by
  intro f ready
  refine ⟨.after p, spreads f ready, breaks, ?_⟩
  simpa [Front.begun, Front.after] using .inr some

theorem appendToLast_ne_nil (t : Text) (ls : List Text) : appendToLast t ls ≠ [] := by
  fun_induction appendToLast t ls <;> simp

section Elements

variable (depth : Nat) (name : Text) (attributes : Attributes) {ps : List Piece}

/-- An element with its content on one line is spread when the content is. -/
theorem lays_around {g : Front} {body : Text}
    (content : Spreads style (.after (.ending false)) ps body g) :
    Lays style depth (tagPieces name attributes false ++ ps ++ [.closing name])
      (appendToLast (body ++ endTag name) (startLines style depth name attributes ">")) := by
  refine .of_spreads (p := .closing name) (appendToLast_ne_nil _ _) rfl fun f ready => ?_
  have tag := spreads_startLines style ready name attributes false
  have closing : Spreads style g [.closing name] _ _ := .single rfl (.edge (.inr rfl) rfl) (.same _)
  rw [stacked_appendToLast _ (startLines_ne_nil style depth name attributes _),
    ← List.append_assoc (stacked _ _)]
  exact (tag.append content).append closing

/-- An element with its content on lines of its own is spread when the content is. -/
theorem lays_surround {ls : List Text}
    (content : Spreads style (.after (.ending false)) (ps ++ [.closing name])
      (ls.flatMap ('\n' :: ·) ++ '\n' :: style.indent depth ++ endTag name) (.after (.closing name))) :
    Lays style depth (tagPieces name attributes false ++ ps ++ [.closing name])
      (startLines style depth name attributes ">" ++ ls ++ [style.indent depth ++ endTag name]) := by
  refine .of_spreads (p := .closing name) (by simp) rfl fun f ready => ?_
  have tag := spreads_startLines style ready name attributes false
  have lines : stacked f.begun (startLines style depth name attributes ">" ++ ls ++
      [style.indent depth ++ endTag name]) =
        stacked f.begun (startLines style depth name attributes (tagEnding false)) ++
          (ls.flatMap ('\n' :: ·) ++ '\n' :: style.indent depth ++ endTag name) := by
    rw [List.append_assoc, stacked_append_of_ne_nil _ (startLines_ne_nil style depth name attributes _)]
    simp [tagEnding]
  rw [lines, List.append_assoc]
  exact tag.append content

/-- Lines one level deeper may stand between the tags of an element. -/
theorem Lays.surround {ls : List Text} (inner : Lays style (depth + 1) ps ls) :
    Spreads style (.after (.ending false)) (ps ++ [.closing name])
      (ls.flatMap ('\n' :: ·) ++ '\n' :: style.indent depth ++ endTag name) (.after (.closing name)) := by
  obtain ⟨g, spreads, ready, begun⟩ := inner (.after (.ending false)) rfl
  have closing : Spreads style g [.closing name] _ _ :=
    .single rfl (.broken depth (ready.breaks begun) rfl) (.same _)
  rw [List.append_assoc, ← stacked_true]
  exact spreads.append closing

end Elements

theorem isVisibleText_of_not_showsBreaks {nodes : List Node} (still : showsBreaks nodes = false) :
    ∀ n ∈ nodes, n.isVisibleText = false := by
  have none := (Bool.or_eq_false_iff.mp still).1
  exact fun n member => by simpa using List.any_eq_false.mp none n member

/-- The lines of an element are its pieces when the lines of its content are. -/
theorem lays_elementLines {depth : Nat} {name : Text} {attributes : Attributes} {children : List Node}
    (content : ∀ {lines}, showsBreaks children = false →
      allLines style (depth + 1) children = .ok lines →
      Lays style (depth + 1) (piecesAll children) lines)
    {lines : List Text} (laid : nodeLines style depth (.element name attributes children) = .ok lines) :
    Lays style depth (pieces (.element name attributes children)) lines := by
  rw [pieces]
  cases elementLines_of_nodeLines laid with
  | void void =>
    rw [if_pos void]
    exact .of_spreads (startLines_ne_nil _ _ _ _ _) rfl fun f ready =>
      spreads_startLines style ready name attributes true
  | verbatim ends counts =>
    rw [if_neg ends, if_pos counts]
    obtain ⟨q, spreads⟩ := exists_spreads_visible style (.ending false)
      (visible_keptPiecesAll false children)
    rw [oneLine_keptPiecesAll] at spreads
    exact lays_around depth name attributes spreads
  | rawBlank ends other raw blank =>
    rw [if_neg ends, if_neg other, if_pos raw]
    exact lays_around depth name attributes (.single rfl .line (.empty blank))
  | raw ends other raw _ made =>
    rw [if_neg ends, if_neg other, if_pos raw]
    have body : Spreads style (.after (.ending false)) _ _ _ :=
      .single rfl .line (exists_written_raw (List.elem_iff.mp raw) made)
    exact lays_surround depth name attributes
      (body.append (.single (s := []) (p := .closing name) rfl .line (.same _)))
  | line ends other plain =>
    rw [if_neg ends, if_neg other, if_neg plain]
    obtain ⟨g, spreads, -⟩ := exists_spreads_content style (f := .after (.ending false)) rfl
      (ended_piecesAll children)
    rw [oneLine_piecesAll] at spreads
    exact lays_around depth name attributes spreads
  | blank ends other plain _ blank =>
    rw [if_neg ends, if_neg other, if_neg plain]
    obtain ⟨n, spaces⟩ := exists_blanks blank
    rw [spaces]
    exact lays_around depth name attributes (spreads_blanks _ n)
  | block ends other plain breaks _ made =>
    rw [if_neg ends, if_neg other, if_neg plain]
    have still : showsBreaks children = false :=
      (Bool.or_eq_false_iff.mp (Bool.not_eq_true _ ▸ breaks)).2
    exact lays_surround depth name attributes ((content still made).surround depth name)

mutual

/-- The lines of a node that is no visible text are its pieces. -/
theorem lays_nodeLines {depth : Nat} : ∀ {n : Node}, n.isVisibleText = false →
    ∀ {lines}, nodeLines style depth n = .ok lines → Lays style depth (pieces n) lines
  | .text t, still, lines, laid => by
    have blank : t.all isMarkupBlank = true := by simpa [Node.isVisibleText] using still
    rw [nodeLines, if_pos blank] at laid
    obtain rfl := Except.ok.inj laid
    obtain ⟨n, spaces⟩ := exists_blanks_text blank
    rw [spaces]
    exact lays_blanks depth n
  | .comment _, _, lines, laid | .doctype _, _, lines, laid | .data _, _, lines, laid
  | .declaration _, _, lines, laid | .instruction _, _, lines, laid => by
    rw [nodeLines] at laid
    · obtain rfl := Except.ok.inj laid
      exact lays_note depth _
    all_goals simp
  | .element name attributes children, _, _, laid =>
    lays_elementLines (fun still made =>
      lays_allLines (isVisibleText_of_not_showsBreaks still) made) laid

theorem lays_allLines {depth : Nat} : ∀ {ns : List Node}, (∀ n ∈ ns, n.isVisibleText = false) →
    ∀ {lines}, allLines style depth ns = .ok lines → Lays style depth (piecesAll ns) lines
  | [], _, lines, laid => by
    obtain rfl := Except.ok.inj laid
    exact lays_blanks depth 0
  | n :: rest, still, lines, laid => by
    obtain ⟨first, others, here, there, rfl⟩ := exists_of_allLines_cons laid
    exact (lays_nodeLines (still n List.mem_cons_self) here).append
      (lays_allLines (fun m member => still m (List.mem_cons_of_mem n member)) there)

end

/-! ## Documents -/

/-- Whether a text is a document of pieces, with a newline at its end unless it is empty. -/
def Laid (style : Style) (ps : List Piece) (out : Text) : Prop :=
  ∃ t g, Spreads style .start ps t g ∧ out = if g.begun then t ++ ['\n'] else []

theorem laid_of_layoutLines {nodes : List Node} {lines : List Text}
    (laid : layoutLines style nodes = .ok lines) : Laid style (piecesAll nodes) (Text.page lines) := by
  unfold layoutLines at laid
  split at laid
  · obtain rfl := Except.ok.inj laid
    obtain ⟨g, spreads, empty⟩ := exists_spreads_content style (f := .start) rfl
      (ended_piecesAll nodes)
    rw [oneLine_piecesAll] at spreads empty
    refine ⟨_, g, spreads, ?_⟩
    rcases empty with ⟨behind, none⟩ | ⟨begun, some⟩
    · rw [Front.begun, behind, none]
      rfl
    · rw [begun, if_neg (mt List.isEmpty_iff.mp some)]
      rfl
  · next still =>
    have lays : Lays style 0 (piecesAll nodes) lines :=
      lays_allLines (isVisibleText_of_not_showsBreaks (by simpa using still)) laid
    obtain ⟨g, spreads, -, begun⟩ := lays .start rfl
    refine ⟨_, g, spreads, ?_⟩
    rw [begun, Stylesheet.page_eq_written]
    by_cases none : lines = []
    · subst none
      rfl
    · rw [if_pos (by simpa [Front.begun, Front.start] using none), written_eq_stacked none]
      rfl

/-- The layout of a markup text is the pieces of its nodes, which side by side are the nodes on one
line. -/
theorem laid_of_format {t out : Text} (formats : format style t = .ok out) :
    ∃ nodes, read t = .ok nodes ∧ inlineAll nodes = oneLine (piecesAll nodes) ∧
      Laid style (piecesAll nodes) out := by
  unfold format at formats
  cases nodes : read t with
  | error fault =>
    rw [nodes] at formats
    cases formats
  | ok ns =>
    rw [nodes] at formats
    obtain ⟨lines, made, rfl⟩ := exists_of_map formats
    exact ⟨ns, rfl, (oneLine_piecesAll ns).symm, laid_of_layoutLines made⟩

theorem laid_of_format_paragraph :
    format .standard "<div><p> a <b>x</b></p><!--n--></div>" =
      .ok ("<div>\n  <p>a <b>x</b></p>\n  <!-- n -->\n</div>\n" : Text) ∧
    ∃ nodes, read "<div><p> a <b>x</b></p><!--n--></div>" = .ok nodes ∧
      inlineAll nodes = oneLine (piecesAll nodes) ∧
      Laid .standard (piecesAll nodes) "<div>\n  <p>a <b>x</b></p>\n  <!-- n -->\n</div>\n" :=
  have accepted : format .standard "<div><p> a <b>x</b></p><!--n--></div>" =
      .ok ("<div>\n  <p>a <b>x</b></p>\n  <!-- n -->\n</div>\n" : Text) := by
    decide +kernel
  ⟨accepted, laid_of_format accepted⟩

/-- A line of a stylesheet that ends with blanks has no blanks at its end in a page. -/
theorem format_blanks_in_comment :
    Stylesheet.format .standard "/* a  \n b */" = .ok ("/* a  \n b */\n" : Text) ∧
    ("/* a  " : Text) ∈ Text.lines "/* a  \n b */\n" ∧
    format .standard "<style>/* a  \n b */</style>" =
      .ok ("<style>\n  /* a\n   b */\n</style>\n" : Text) ∧
    ∀ line ∈ Text.lines "<style>\n  /* a\n   b */\n</style>\n", ¬ ("/* a  " : Text) <:+ line := by
  refine ⟨?_, ?_, ?_, ?_⟩ <;> decide +kernel

end StaticSite.Markup
