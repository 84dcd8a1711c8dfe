import StaticSite.Proofs.Markup.Trimming
import StaticSite.Formatting.Outcome

/-! # Layouts of layouts

A document whose nodes keep at their places has a layout that is laid out as it is. Each node is read
from its lines as a node that has the same lines; between the lines of two nodes stand a line break
and an indentation, and blank text is what they are read as.
-/

namespace StaticSite.Markup

open Stylesheet (written written_append page_eq_written)

variable {style : Style} {depth : Nat}

/-! ## Lines of a node -/

/-- The lines of an element, by its kind. -/
theorem nodeLines_of_elementLines {name : Text} {attributes : Attributes} {children : List Node}
    {ls : List Text} (lines : ElementLines style depth name attributes children ls) :
    nodeLines style depth (.element name attributes children) = .ok ls := by
  rw [nodeLines]
  dsimp only
  cases lines with
  | void void => rw [if_pos void]
  | verbatim ends counts => rw [if_neg ends, if_pos counts]
  | rawBlank ends other raw blank => rw [if_neg ends, if_neg other, if_pos raw, if_pos blank, List.nil_append]
  | raw ends other raw shows made =>
    rw [if_neg ends, if_neg other, if_pos raw, if_neg shows, made]
    rfl
  | line ends other plain keeps => rw [if_neg ends, if_neg other, if_neg plain, if_pos keeps]
  | blank ends other plain breaks blank =>
    rw [if_neg ends, if_neg other, if_neg plain, if_neg breaks, if_pos blank, List.nil_append]
  | block ends other plain breaks shows made =>
    rw [if_neg ends, if_neg other, if_neg plain, if_neg breaks, if_neg shows, made]
    rfl

theorem nodeLines_of_isNote : ∀ {n : Node}, n.isNote →
    nodeLines style depth n = .ok [style.indent depth ++ inline n]
  | .text _, note => by cases note.1
  | .element _ _ _, note => by cases note.2
  | .comment _, _ | .doctype _, _ | .data _, _ | .declaration _, _ | .instruction _, _ => by
    rw [nodeLines]
    all_goals simp

/-- Whether lines are read as a node and are the lines of that node. -/
structure LinesAs (style : Style) (depth : Nat) (m : Node) (ls : List Text) : Prop where
  notText : m.isText = false
  reads : ∃ x, written ls = style.indent depth ++ x ++ ['\n'] ∧
    ∀ p : Progress, p.isVerbatim = false → p.Calm → Reads x p (p.put m)
  again : nodeLines style depth m = .ok ls

theorem exists_linesAs_note {n : Node} (note : n.isNote) (sound : n.Sound false)
    (steady : n.Steady style (.lines depth)) {ls : List Text}
    (laid : nodeLines style depth n = .ok ls) : ∃ m, LinesAs style depth m ls := by
  rw [nodeLines_of_isNote note] at laid
  obtain rfl := Except.ok.inj laid
  obtain ⟨m, read⟩ := exists_readAs_inline_leaf note.2 sound steady
  have same : m.isNote := ⟨read.isText.trans note.1, read.isElement.trans note.2⟩
  refine ⟨m, same.1, ⟨inline n, by simp [written], read.reads⟩, ?_⟩
  rw [nodeLines_of_isNote same, read.same]

/-! ## Lines of nodes -/

/-- Whether lines are read as nodes and are the lines of those nodes, with a line break and blanks
before them and the blanks `outer` behind the last line break; the nodes do not show more than those
that have been laid out. -/
structure BetweenAs (style : Style) (depth : Nat) (outer : Text) (ns : List Node) (blanks : Text)
    (ms : List Node) (ls : List Text) : Prop where
  before : blanks = outer ∨ blanks = style.indent depth
  tidy : Tidy (.text ('\n' :: blanks) :: ms)
  reads : ∀ p : Progress, p.isVerbatim = false → p.Calm →
    Reads (written ls ++ outer) p ((p.push blanks).putAll ms)
  still : showsBreaks (ms.map (Node.counted false)) = false
  blank : (ms.map (Node.counted false)).all Node.isBlank = ns.all Node.isBlank
  again : allLines style depth (ms.map (Node.counted false)) = .ok ls

/-- White space is pending until the next node. -/
theorem reads_blanks {t : Text} (blanks : ∀ c ∈ t, isMarkupBlank c = true) (p : Progress) :
    Reads t p (p.push t) :=
  reads_plain (fun c member => isPlain_of_isBlank (isBlank_of_isMarkupBlank (blanks c member))) p

theorem counted_break {t : Text} (blanks : ∀ c ∈ t, isMarkupBlank c = true) :
    (Node.text ('\n' :: t)).counted false = .text ['\n'] := by
  have all : ('\n' :: t).all isMarkupBlank = true :=
    List.all_eq_true.mpr (List.forall_mem_cons.mpr ⟨rfl, blanks⟩)
  rw [Node.counted, textIn, all]
  simp

theorem nodeLines_break : nodeLines style depth (.text ['\n']) = .ok [] := by
  rw [nodeLines]
  rfl

theorem Node.isBlank_of_isText : ∀ {n : Node}, n.isText = false → n.isBlank = false
  | .text _, wrong => by cases wrong
  | .element _ _ _, _ | .comment _, _ | .doctype _, _ | .data _, _ | .declaration _, _
  | .instruction _, _ => rfl

theorem Node.isVisibleText_of_isText : ∀ {n : Node}, n.isText = false → n.isVisibleText = false
  | .text _, wrong => by cases wrong
  | .element _ _ _, _ | .comment _, _ | .doctype _, _ | .data _, _ | .declaration _, _
  | .instruction _, _ => rfl

theorem showsBreaks_cons_text {m : Node} (other : m.isText = false) (t : Text) (ns : List Node) :
    showsBreaks (m :: .text t :: ns) = showsBreaks (.text t :: ns) := by
  rw [showsBreaks, showsBreaks, List.any_cons, Node.isVisibleText_of_isText other, anyNeighbours]
  simp [Node.isInline]

namespace BetweenAs

variable {outer : Text}

theorem nil (blanks : ∀ c ∈ outer, isMarkupBlank c = true) :
    BetweenAs style depth outer [] outer [] [] where
  before := .inl rfl
  tidy := ⟨.singleton _, by simp⟩
  reads p _ _ := reads_blanks blanks p
  still := rfl
  blank := rfl
  again := rfl

variable {ns ms : List Node} {blanks : Text} {others : List Text}
variable (between : BetweenAs style depth outer ns blanks ms others)
include between

theorem all_blank (empty : ∀ c ∈ outer, isMarkupBlank c = true) : ∀ c ∈ blanks, isMarkupBlank c = true := by
  rcases between.before with rfl | rfl
  · exact empty
  · exact fun c => isMarkupBlank_of_mem_indent

/-- A node without visible text has no line. -/
theorem skip {t : Text} (blank : t.all isMarkupBlank = true) :
    BetweenAs style depth outer (.text t :: ns) blanks ms others :=
  { between with blank := by rw [between.blank, List.all_cons, Node.isBlank, blank, Bool.true_and] }

theorem cons (empty : ∀ c ∈ outer, isMarkupBlank c = true) {n m : Node} {first : List Text}
    (shows : n.isText = false) (here : LinesAs style depth m first) :
    BetweenAs style depth outer (n :: ns) (style.indent depth) (m :: .text ('\n' :: blanks) :: ms)
      (first ++ others) := by
  obtain ⟨notText, ⟨x, text, reads⟩, again⟩ := here
  have counted : (m :: .text ('\n' :: blanks) :: ms).map (Node.counted false) =
      m :: .text ['\n'] :: ms.map (Node.counted false) := by
    rw [List.map_cons, List.map_cons, Node.counted_of_isText notText,
      counted_break (between.all_blank empty)]
  refine ⟨.inr rfl, ⟨?_, ?_⟩, fun p place calm => ?_, ?_, ?_, ?_⟩
  · refine List.isChain_cons.mpr ⟨fun k head => ?_, List.isChain_cons.mpr
      ⟨fun k _ => by simp [notText], between.tidy.apart⟩⟩
    obtain rfl := Option.mem_some.mp head
    simp [notText]
  · intro u member
    rcases List.mem_cons.mp member with same | inside
    · simp [Node.text.inj same]
    · rcases List.mem_cons.mp inside with rfl | behind
      · cases notText
      · exact between.tidy.some u behind
  · have whole : written (first ++ others) ++ outer =
        style.indent depth ++ x ++ ['\n'] ++ (written others ++ outer) := by
      rw [written_append, text]
      simp
    have inner : ((p.push (style.indent depth)).put m).isVerbatim = false :=
      (Progress.isVerbatim_put _ m).trans place
    have read := (reads_blanks (fun c => isMarkupBlank_of_mem_indent) p).append
      (reads (p.push (style.indent depth)) place calm)
    have newline := read.append (reads_blanks (t := ['\n']) (by decide) _)
    have pushed : (p.push (style.indent depth)).Calm := calm
    have later : ((p.push (style.indent depth)).put m).Calm := pushed.put m
    have behind := newline.append (between.reads _ inner later)
    rw [Progress.push_push] at behind
    rwa [whole]
  · rw [counted, showsBreaks_cons_text notText, showsBreaks_text_cons, between.still]
    rfl
  · rw [counted, List.all_cons, Node.isBlank_of_isText notText]
    exact (Bool.and_eq_false_iff.mpr (.inl (Node.isBlank_of_isText shows))).symm
  · rw [counted, allLines, allLines, nodeLines_break, again, between.again]
    rfl

/-- The line break and the blanks before the nodes are read as a line break. -/
theorem counted (empty : ∀ c ∈ outer, isMarkupBlank c = true) :
    (Node.text ('\n' :: blanks) :: ms).map (Node.counted false) =
      .text ['\n'] :: ms.map (Node.counted false) := by
  rw [List.map_cons, counted_break (between.all_blank empty)]

end BetweenAs

theorem exists_betweenAs {outer : Text} (empty : ∀ c ∈ outer, isMarkupBlank c = true)
    {ns : List Node} (still : ∀ n ∈ ns, n.isVisibleText = false)
    (each : ∀ n ∈ ns, n.isText = false → ∀ {ls}, nodeLines style depth n = .ok ls →
      ∃ m, LinesAs style depth m ls)
    {ls : List Text} (laid : allLines style depth ns = .ok ls) :
    ∃ blanks ms, BetweenAs style depth outer ns blanks ms ls := by
  induction ns generalizing ls with
  | nil =>
    obtain rfl := Except.ok.inj laid
    exact ⟨_, _, .nil empty⟩
  | cons n rest ih =>
    obtain ⟨first, others, here, there, rfl⟩ := exists_of_allLines_cons laid
    obtain ⟨hidden, quiet⟩ := List.forall_mem_cons.mp still
    obtain ⟨blanks, ms, later⟩ := ih quiet (fun m member => each m (List.mem_cons_of_mem n member)) there
    by_cases isText : n.isText = true
    · obtain ⟨t, rfl⟩ := exists_text_of_isText isText
      have blank : t.all isMarkupBlank = true := by simpa [Node.isVisibleText] using hidden
      rw [nodeLines, if_pos blank] at here
      obtain rfl := Except.ok.inj here
      exact ⟨blanks, ms, later.skip blank⟩
    · have shows : n.isText = false := by simpa using isText
      obtain ⟨m, lines⟩ := each n List.mem_cons_self shows here
      exact ⟨_, _, later.cons empty shows lines⟩

/-! ## Elements -/

section Elements

variable {name : Text} {attributes : Attributes} {children : List Node} {ls : List Text}

theorem LinesAs.of_element {x : Text} (lines : ElementLines style depth name attributes children ls)
    (text : written ls = style.indent depth ++ x ++ ['\n'])
    (reads : ∀ p : Progress, p.isVerbatim = false → p.Calm →
      Reads x p (p.put (.element name attributes children))) :
    LinesAs style depth (.element name attributes children) ls :=
  ⟨rfl, ⟨x, text, reads⟩, nodeLines_of_elementLines lines⟩

variable (ordered : SoundAttributes attributes)
variable (separate : TagAttribute.Separate (attributes.map (attributeTag true)))

section Raw

variable (raw : rawElements.elem name = true)
include ordered separate raw

theorem linesAs_rawBlank (ends : ¬ voidElements.elem name = true)
    (other : ¬ verbatimElements.elem name = true) :
    LinesAs style depth (.element name attributes [])
      (appendToLast (endTag name) (startLines style depth name attributes ">")) := by
  obtain ⟨gap, tail, spacing, text⟩ := written_aroundLine style depth name attributes
  exact .of_element (.rawBlank ends other raw rfl) (text []) fun p _ calm =>
    reads_rawElement ordered separate spacing (List.elem_iff.mp raw) rfl calm

/-- Raw content on lines of its own is read as content that has those lines. -/
theorem linesAs_raw (content : RawChildren name children) (ends : ¬ voidElements.elem name = true)
    (other : ¬ verbatimElements.elem name = true)
    (sheet : name = "style" → SteadySheet style (rawBody children))
    (visible : (rawBody children).isBlank = false)
    (made : rawLines style depth name (rawBody children) = .ok ls) :
    LinesAs style depth (.element name attributes [.text (between (style.indent depth) ls)])
      (startLines style depth name attributes ">" ++ ls ++ [style.indent depth ++ endTag name]) := by
  obtain ⟨gap, tail, spacing, text⟩ := written_aroundLines style depth name attributes ls
  have member := List.elem_iff.mp raw
  have shown := isBlank_between visible sheet made
  have quiet := (rawLines_sound member content.rawContent (fun same => (sheet same).sound) visible made).1
  have counted : textIn false (between (style.indent depth) ls) = between (style.indent depth) ls := by
    obtain ⟨c, inside, seen⟩ := List.all_eq_false.mp shown
    exact textIn_of_mem inside (by simpa using seen) false
  have body := rawBody_text (between (style.indent depth) ls)
  refine .of_element (.raw ends other raw ?_ ?_) text fun p place calm => ?_
  · rw [body, shown]
    exact Bool.false_ne_true
  · rw [body, rawLines_between visible sheet made]
  · have reads := reads_rawElement ordered separate spacing member quiet calm
    rw [place] at reads
    exact counted ▸ reads

end Raw

variable (whole : ElementName name) (ends : ¬ voidElements.elem name = true)
include ordered separate whole ends

/-- An element whose white space counts is read back. -/
theorem exists_linesAs_kept (counts : verbatimElements.elem name = true) (apart : Apart children)
    (kept : ∃ ms, List.Forall₂ (ReadAs true (verbatim false)) children ms) :
    ∃ m, LinesAs style depth m (appendToLast (verbatimAll false children ++ endTag name)
      (startLines style depth name attributes ">")) := by
  obtain ⟨gap, tail, spacing, text⟩ := written_aroundLine style depth name attributes
  obtain ⟨ms, each⟩ := kept
  have same : verbatimAll false ms = verbatimAll false children := by
    rw [verbatimAll_eq, verbatimAll_eq, flatMap_print each]
  exact ⟨.element name attributes ms, .of_element (same ▸ .verbatim ends counts) (text _)
    fun p _ calm => reads_keptElement whole ordered separate spacing calm counts apart each⟩

variable (other : ¬ verbatimElements.elem name = true) (plain : ¬ rawElements.elem name = true)
include other plain

/-- An element around nothing. -/
theorem linesAs_empty (breaks : ¬ keepsInline name children = true) :
    LinesAs style depth (.element name attributes [])
      (appendToLast (endTag name) (startLines style depth name attributes ">")) := by
  obtain ⟨gap, tail, spacing, text⟩ := written_aroundLine style depth name attributes
  have still : ¬ keepsInline name [] = true := fun keeps => breaks (by
    rw [keepsInline, showsBreaks] at keeps ⊢
    simp only [List.any_nil, anyNeighbours, Bool.or_false] at keeps
    rw [keeps, Bool.true_or])
  refine .of_element (.blank ends other plain still rfl) (text []) fun p place calm => ?_
  exact reads_innerElement whole ordered separate spacing calm place (by simpa using other)
    (by simpa using plain) (fun _ => ⟨rfl, rfl⟩) ⟨.nil, by simp⟩ fun q _ _ => .nil q

variable (closing : name ∈ selfClosingElements → children = [])
include closing

/-- Content on one line is read as content that stays on it. -/
theorem exists_linesAs_line (keeps : keepsInline name children = true)
    (content : Content style children) :
    ∃ m, LinesAs style depth m (appendToLast ((inlineAll children).trimSpaces ++ endTag name)
      (startLines style depth name attributes ">")) := by
  obtain ⟨gap, tail, spacing, text⟩ := written_aroundLine style depth name attributes
  obtain ⟨ms, inner, same, none, trimmed⟩ := exists_trimmed content
  obtain ⟨ks, each⟩ := exists_readAs_inlineAll inner.sound inner.steady
  have stays : (inlineAll ks).trimSpaces = (inlineAll children).trimSpaces := by
    rw [inlineAll_eq, flatMap_print each, ← inlineAll_eq, trimmed, Text.trimSpaces_trimSpaces]
  have holds : keepsInline name ks = true := by
    rw [← keeps, keepsInline, keepsInline, showsBreaks_eq each, same]
  refine ⟨.element name attributes ks,
    .of_element (stays ▸ .line ends other plain holds) (text _) fun p place calm => ?_⟩
  have empty (closes : name ∈ selfClosingElements) : (inlineAll children).trimSpaces = [] ∧ ks = [] := by
    obtain rfl := closing closes
    obtain rfl := none rfl
    cases each
    exact ⟨by rw [inlineAll]; rfl, rfl⟩
  have reads := reads_innerElement whole ordered separate spacing calm place (by simpa using other)
    (by simpa using plain) empty (tidy_of_apart each inner.apart) fun q place calm => by
      rw [← trimmed, inlineAll_eq]
      exact reads_putAll each place calm
  rwa [map_counted each] at reads

/-- Content on lines of its own is read as content that has those lines. -/
theorem exists_linesAs_block (breaks : ¬ keepsInline name children = true)
    (shows : ¬ children.all Node.isBlank = true)
    (content : ∃ blanks ms, BetweenAs style (depth + 1) (style.indent depth) children blanks ms ls) :
    ∃ m, LinesAs style depth m
      (startLines style depth name attributes ">" ++ ls ++ [style.indent depth ++ endTag name]) := by
  obtain ⟨gap, tail, spacing, text⟩ := written_aroundLines style depth name attributes ls
  obtain ⟨blanks, ms, inner⟩ := content
  refine ⟨.element name attributes (.text ['\n'] :: ms.map (Node.counted false)),
    .of_element (.block ends other plain ?_ ?_ ?_) text fun p place calm => ?_⟩
  · rw [keepsInline, showsBreaks_text_cons, inner.still, show ['\n'].all isMarkupBlank = true from rfl]
    rw [keepsInline, Bool.or_eq_true, not_or] at breaks
    simpa using breaks.1
  · rwa [List.all_cons, inner.blank]
  · rw [allLines, nodeLines_break, inner.again]
    rfl
  · rw [← inner.counted fun c => isMarkupBlank_of_mem_indent]
    refine reads_innerElement whole ordered separate spacing calm place (by simpa using other)
      (by simpa using plain) (fun closes => ?_) inner.tidy fun q place calm => ?_
    · rw [closing closes] at shows
      exact absurd rfl shows
    · have read := (reads_blanks (t := ['\n']) (by decide) q).append
        (inner.reads (q.push ['\n']) place calm)
      rwa [Progress.push_push] at read

end Elements

/-- The lines of an element are read as one that has the same lines when its content is. -/
theorem exists_linesAs_element {name : Text} {attributes : Attributes} {children : List Node}
    {ls : List Text} (named : SoundName name) (ordered : SoundAttributes attributes)
    (apart : Apart children) (raw : name ∈ rawElements → RawChildren name children)
    (closing : name ∈ selfClosingElements → children = [])
    (element : SteadyElement (.lines depth) name attributes)
    (sheet : name = "style" → SteadySheet style (rawBody children))
    (kept : voidElements.elem name = false → verbatimElements.elem name = true →
      ∃ ms, List.Forall₂ (ReadAs true (verbatim false)) children ms)
    (line : voidElements.elem name = false → verbatimElements.elem name = false →
      keepsInline name children = true → Content style children)
    (block : voidElements.elem name = false → verbatimElements.elem name = false →
      keepsInline name children = false → ∀ {ls}, allLines style (depth + 1) children = .ok ls →
        ∃ blanks ms, BetweenAs style (depth + 1) (style.indent depth) children blanks ms ls)
    (laid : nodeLines style depth (.element name attributes children) = .ok ls) :
    ∃ m, LinesAs style depth m ls := by
  have separate := element.separate (by simp)
  have whole := named.element element.closable
  cases elementLines_of_nodeLines laid with
  | void void =>
    obtain ⟨gap, tail, spacing, text⟩ := written_startLines style depth name attributes true
    have start := text []
    rw [appendToLast_nil (startLines_ne_nil style depth name attributes _), List.append_nil] at start
    exact ⟨.element name attributes [], .of_element (.void void) start fun p _ _ =>
      reads_slashElement ordered separate spacing named.toTagName named.lower⟩
  | verbatim ends counts =>
    exact exists_linesAs_kept ordered separate whole ends counts apart (kept (by simpa using ends) counts)
  | rawBlank ends other isRaw => exact ⟨_, linesAs_rawBlank ordered separate isRaw ends other⟩
  | raw ends other isRaw shows made =>
    exact ⟨_, linesAs_raw ordered separate isRaw (raw (List.elem_iff.mp isRaw)) ends other sheet
      (by simpa using shows) made⟩
  | line ends other plain keeps =>
    exact exists_linesAs_line ordered separate whole ends other plain closing keeps
      (line (by simpa using ends) (by simpa using other) keeps)
  | blank ends other plain breaks => exact ⟨_, linesAs_empty ordered separate whole ends other plain breaks⟩
  | block ends other plain breaks shows made =>
    exact exists_linesAs_block ordered separate whole ends other plain closing breaks shows
      (block (by simpa using ends) (by simpa using other) (by simpa using breaks) made)

mutual

/-- The lines of a node are read as a node that has the same lines. -/
theorem exists_linesAs : ∀ {n : Node} {depth : Nat}, n.Sound false → n.Steady style (.lines depth) →
    n.isText = false → ∀ {ls}, nodeLines style depth n = .ok ls → ∃ m, LinesAs style depth m ls
  | .element name attributes children, depth, sound, steady, _, ls, laid => by
    obtain ⟨⟨named, ordered⟩, apart, ⟨raw, closing⟩, below⟩ := sound
    obtain ⟨element, sheet, inside⟩ := steady
    refine exists_linesAs_element named ordered apart raw closing element (fun same => sheet same rfl)
      (fun ends counts => ?_) (fun ends plain keeps => ?_) (fun ends plain breaks ls made => ?_) laid
    · rw [counts, Bool.true_or] at below
      exact exists_readAs_verbatimAll below (inside .verbatim (by rw [Place.inside?, ends, counts]; rfl))
    · rw [plain, Bool.or_false] at below
      exact ⟨apart, below, inside .line (by rw [Place.inside?, ends, plain, keeps]; rfl)⟩
    · rw [plain, Bool.or_false] at below
      have steady := inside (.lines (depth + 1)) (by rw [Place.inside?, ends, plain, breaks]; rfl)
      have still : showsBreaks children = false := (Bool.or_eq_false_iff.mp breaks).2
      exact exists_betweenAs (fun c => isMarkupBlank_of_mem_indent)
        (isVisibleText_of_not_showsBreaks still) (exists_linesAs_all below steady) made
  | .text _, _, _, _, wrong, _, _ => by cases wrong
  | .comment _, _, sound, steady, _, _, laid | .doctype _, _, sound, steady, _, _, laid
  | .data _, _, sound, steady, _, _, laid | .declaration _, _, sound, steady, _, _, laid
  | .instruction _, _, sound, steady, _, _, laid => exists_linesAs_note ⟨rfl, rfl⟩ sound steady laid

theorem exists_linesAs_all : ∀ {ns : List Node} {depth : Nat}, SoundAll false ns →
    SteadyAll style (.lines depth) ns → ∀ n ∈ ns, n.isText = false →
      ∀ {ls}, nodeLines style depth n = .ok ls → ∃ m, LinesAs style depth m ls
  | [], _, _, _, n, member => by cases member
  | _ :: _, _, sound, steady, n, member => by
    rcases List.mem_cons.mp member with here | later
    · rw [here]
      exact exists_linesAs sound.1 steady.1
    · exact exists_linesAs_all sound.2 steady.2 n later

end

/-! ## Documents -/

/-- What is read of a text that puts tidy nodes. -/
theorem read_of_reads {x : Text} {ms : List Node} (reads : Reads x .start (Progress.start.putAll ms))
    (tidy : Tidy ms) : read x = .ok (ms.map (Node.counted false)) := by
  have ends := reads false []
  rw [List.append_nil] at ends
  have gathered := Progress.gathered_putAll (p := .start) rfl tidy
  rw [Progress.gathered] at gathered
  rw [read, tokens, ends]
  simp only [tokensFrom, readFrom, Progress.complete, Progress.flush_eq, (Progress.putAll_keeps _ ms).1]
  exact congrArg Except.ok gathered

theorem page_single {t : Text} (some : t ≠ []) : Text.page (if t.isEmpty then [] else [t]) = t ++ ['\n'] := by
  rw [if_neg (by simpa using some), page_eq_written]
  simp [written]

/-- The layout on one line of nodes that keep is laid out as it is. -/
theorem format_line {ns : List Node} (content : Content style ns) (breaks : showsBreaks ns = true)
    {ls : List Text} (laid : layoutLines style ns = .ok ls) :
    format style (Text.page ls) = .ok (Text.page ls) := by
  rw [layoutLines, if_pos breaks] at laid
  obtain rfl := Except.ok.inj laid
  by_cases empty : (inlineAll ns).trimSpaces = []
  · rw [empty]
    rfl
  obtain ⟨ms, inner, same, -, trimmed⟩ := exists_trimmed content
  obtain ⟨ks, each⟩ := exists_readAs_inlineAll inner.sound inner.steady
  obtain ⟨js, tidy, put, shows, stays⟩ :=
    exists_withBreak (tidy_of_apart each inner.apart) (map_counted each)
  have line : inlineAll ks = (inlineAll ns).trimSpaces := by
    rw [← trimmed, inlineAll_eq, inlineAll_eq, flatMap_print each]
  have reads : Reads ((inlineAll ns).trimSpaces ++ ['\n']) .start (Progress.start.putAll js) := by
    rw [put, ← trimmed, inlineAll_eq]
    exact (reads_putAll each rfl (.of_nil rfl)).append (reads_blanks (t := ['\n']) (by decide) _)
  rw [page_single empty, format, read_of_reads reads tidy]
  change (layoutLines style _).map Text.page = _
  rw [layoutLines, shows, showsBreaks_eq each, same, breaks, stays, line, Text.trimSpaces_trimSpaces]
  exact congrArg Except.ok (page_single empty)

/-- The layout on lines of nodes that keep is laid out as it is. -/
theorem format_lines {ns : List Node} (sound : SoundAll false ns) (steady : SteadyAll style (.lines 0) ns)
    (still : showsBreaks ns = false) {ls : List Text} (laid : allLines style 0 ns = .ok ls) :
    format style (Text.page ls) = .ok (Text.page ls) := by
  obtain ⟨blanks, ms, lines⟩ := exists_betweenAs (fun c inside => absurd inside List.not_mem_nil)
    (isVisibleText_of_not_showsBreaks still) (exists_linesAs_all sound steady) laid
  have none : blanks = [] := by
    rcases lines.before with empty | margin
    · exact empty
    · exact margin.trans (by simp [Style.indent])
  subst none
  have reads := lines.reads .start rfl (.of_nil rfl)
  rw [List.append_nil, ← page_eq_written] at reads
  rw [format, read_of_reads reads lines.tidy.tail]
  change (layoutLines style _).map Text.page = _
  rw [layoutLines, lines.still, lines.again]
  rfl

/-- A text whose nodes keep has a layout that is laid out as it is. -/
theorem format_format {style : Style} {t out : Text} (laid : format style t = .ok out)
    (steady : ∀ nodes, read t = .ok nodes → SteadyAll style (.top nodes) nodes) :
    format style out = .ok out := by
  obtain ⟨ns, ls, nodes, made, rfl⟩ := exists_of_format laid
  obtain ⟨apart, sound⟩ := sound_read nodes
  have keeps := steady ns nodes
  by_cases breaks : showsBreaks ns = true
  · rw [Place.top, if_pos breaks] at keeps
    exact format_line ⟨apart, sound, keeps⟩ breaks made
  · rw [Place.top, if_neg breaks] at keeps
    rw [layoutLines, if_neg breaks] at made
    exact format_lines sound keeps (by simpa using breaks) made

/-- A document whose nodes keep at their places comes out of formatting as something that formatting
leaves as it is. -/
theorem outcome_format {style : Style} {t out : Text}
    (laid : Formatting.format .markup style t = .ok out)
    (steady : ∀ nodes, read t = .ok nodes → SteadyAll style (.top nodes) nodes) :
    Formatting.format .markup style out = .ok out ∧
      Formatting.outcome .markup style out = ⟨out, false, []⟩ := by
  obtain ⟨unit, formatted⟩ := Formatting.format_markup_iff.mp laid
  have again := Formatting.format_markup_iff.mpr ⟨unit, format_format formatted steady⟩
  exact ⟨again, by simp [Formatting.outcome, again]⟩

/-- Blocks in blocks, a line, white space that counts and a stylesheet. -/
def noteList : Text :=
  "<ul><li>One <b>two</b><!--x--></li><li><br></li></ul><pre> p </pre><style>a\x7bb:c\x7d</style>"

/-- The layout of `noteList`. -/
def noteListLayout : Text :=
  "<ul>\n  <li>One <b>two</b><!-- x --></li>\n  <li>\n    <br />\n  </li>\n</ul>\n" ++
    "<pre> p </pre>\n<style>\n  a \x7b\n    b: c;\n  \x7d\n</style>\n"

theorem outcome_format_noteList :
    Formatting.format .markup .standard noteList = .ok noteListLayout ∧
      (∀ nodes, read noteList = .ok nodes → SteadyAll .standard (.top nodes) nodes) ∧
        Formatting.format .markup .standard noteListLayout = .ok noteListLayout ∧
          Formatting.outcome .markup .standard noteListLayout = ⟨noteListLayout, false, []⟩ := by
  have accepted : Formatting.format .markup .standard noteList = .ok noteListLayout := by
    decide +kernel
  have known : ∀ nodes ∈ (read noteList).toOption, SteadyAll .standard (.top nodes) nodes := by
    decide +kernel
  have steady : ∀ nodes, read noteList = .ok nodes → SteadyAll .standard (.top nodes) nodes :=
    fun nodes found => known nodes (by simp [found, Except.toOption])
  exact ⟨accepted, steady, outcome_format accepted steady⟩

/-- A comment of several lines in a style element is indented anew. -/
theorem format_comment_moves : ∃ out again,
    Formatting.format .markup .standard "<style>/* a\n b */</style>" = .ok out ∧
      Formatting.format .markup .standard out = .ok again ∧ again ≠ out :=
  ⟨"<style>\n  /* a\n   b */\n</style>\n", "<style>\n  /* a\n     b */\n</style>\n",
    by decide +kernel, by decide +kernel, by decide⟩

end StaticSite.Markup
