import StaticSite.Proofs.Markup.Rereading

/-! # Content on a line of its own

A line is written without the spaces at the ends of its content, and a document ends with a line
break. The nodes that are read of such a line are those of the content with less text at one end or
with more, and they are laid out on the same line.
-/

namespace StaticSite.Markup

/-! ## Content without spaces at its ends -/

/-- Nodes that keep their text on a line. -/
structure Content (style : Style) (ns : List Node) : Prop where
  apart : Apart ns
  sound : SoundAll false ns
  steady : SteadyAll style .line ns

theorem steadyAll_iff {style : Style} {place : Place} {ns : List Node} :
    SteadyAll style place ns ↔ ∀ n ∈ ns, n.Steady style place := by
  induction ns with
  | nil => simp [SteadyAll]
  | cons n rest ih => simp [SteadyAll, ih]

theorem Content.of_parts {style : Style} {ns ms : List Node} (content : Content style ns)
    (apart : Apart ms) (parts : ∀ m ∈ ms, m ∈ ns ∨ ∃ t, m = .text t ∧ t ≠ [] ∧ textIn false t = t) :
    Content style ms where
  apart := apart
  sound := soundAll_iff.mpr fun m member => by
    rcases parts m member with inside | ⟨t, rfl, some, counted⟩
    · exact soundAll_iff.mp content.sound m inside
    · exact ⟨some, counted⟩
  steady := steadyAll_iff.mpr fun m member => by
    rcases parts m member with inside | ⟨t, rfl, -, -⟩
    · exact steadyAll_iff.mp content.steady m inside
    · trivial

theorem ends_of_eq {x y z : Text} (starts : x = '<' :: y) (ends : x = z ++ ['>']) :
    x.head? = some '<' ∧ x.getLast? = some '>' :=
  ⟨by rw [starts]; rfl, by rw [ends]; exact List.getLast?_concat⟩

/-- What is written of a node that is no text starts and ends with the delimiters of a tag. -/
theorem ends_inline : ∀ {n : Node}, n.isText = false →
    (inline n).head? = some '<' ∧ (inline n).getLast? = some '>'
  | .comment t, _ => by
    rw [inline_comment, commentText]
    split
    · exact ⟨rfl, rfl⟩
    · exact ends_of_eq rfl (z := "<!-- " ++ t.trim ++ " --") (by simp)
  | .doctype t, _ => by
    rw [inline_doctype]
    exact ends_of_eq rfl rfl
  | .data t, _ => by
    rw [inline_eq_verbatim ⟨t, .inl rfl⟩]
    exact ends_of_eq rfl (z := "<![CDATA[" ++ t ++ [']', ']']) (by rw [List.append_assoc]; rfl)
  | .declaration t, _ => by
    rw [inline_eq_verbatim ⟨t, .inr (.inl rfl)⟩]
    exact ends_of_eq rfl (z := "<?" ++ t ++ ['?']) (by rw [List.append_assoc]; rfl)
  | .instruction t, _ => by
    rw [inline_eq_verbatim ⟨t, .inr (.inr rfl)⟩]
    exact ends_of_eq rfl rfl
  | .element name attributes children, _ => by
    have one : inline (.element name attributes children) =
        oneLine (Place.pieces .line [.element name attributes children]) := by
      rw [Place.oneLine_pieces, List.flatMap_singleton]
      rfl
    obtain ⟨⟨q, qs, first, starts⟩, ps, p, last, ends, -⟩ :=
      exists_pieces_element .standard .line name attributes children
    rw [one]
    exact ⟨by rw [first, head?_oneLine starts], by rw [last, getLast?_oneLine ps ends]⟩

section Trimming

variable {style : Style} {ns : List Node} (content : Content style ns)

theorem anyNeighbours_cons {test : Node → Bool} {n : Node} (fails : test n = false) (ns : List Node) :
    anyNeighbours test (n :: ns) = anyNeighbours test ns := by
  cases ns with
  | nil => rfl
  | cons m rest => rw [anyNeighbours, fails, Bool.false_and, Bool.false_or]

theorem anyNeighbours_concat {test : Node → Bool} {n : Node} (fails : test n = false) (ns : List Node) :
    anyNeighbours test (ns ++ [n]) = anyNeighbours test ns := by
  induction ns with
  | nil => rfl
  | cons m rest ih =>
    cases rest with
    | nil => simp [anyNeighbours, fails]
    | cons k more =>
      rw [List.cons_append, List.cons_append, anyNeighbours, anyNeighbours, ← List.cons_append, ih]

theorem showsBreaks_text_cons (t : Text) (ns : List Node) :
    showsBreaks (.text t :: ns) = (!t.all isMarkupBlank || showsBreaks ns) := by
  rw [showsBreaks, showsBreaks, List.any_cons, anyNeighbours_cons rfl, Bool.or_assoc]
  rfl

theorem showsBreaks_concat_text (ns : List Node) (t : Text) :
    showsBreaks (ns ++ [.text t]) = (showsBreaks ns || !t.all isMarkupBlank) := by
  rw [showsBreaks, showsBreaks, List.any_append, anyNeighbours_concat rfl, Bool.or_right_comm]
  simp [Node.isVisibleText]

/-- Whether a text is what is left of another one, as that stands on a line, without the spaces at
one end. -/
structure Cut (t s : Text) : Prop where
  part : s <:+: collapse t
  kept : ∀ c ∈ collapse t, c ∈ s ∨ c = ' '
  ends : s ≠ [] → ∃ c ∈ s, (c == ' ') = false

/-- What is left of a text, as nodes. -/
def remainder (s : Text) : List Node := if s.isEmpty then [] else [.text s]

theorem remainder_cases (s : Text) : s = [] ∧ remainder s = [] ∨ s ≠ [] ∧ remainder s = [.text s] := by
  by_cases none : s = []
  · exact .inl ⟨none, by rw [none]; rfl⟩
  · exact .inr ⟨none, if_neg (by simpa using none)⟩

theorem apart_remainder {rest : List Node} (t s : Text) :
    (Apart (.text t :: rest) → Apart (remainder s ++ rest)) ∧
      (Apart (rest ++ [.text t]) → Apart (rest ++ remainder s)) := by
  rcases remainder_cases s with ⟨-, left⟩ | ⟨-, left⟩ <;> rw [left]
  · rw [List.nil_append, List.append_nil]
    exact ⟨fun apart => List.IsChain.infix apart (List.suffix_cons _ _).isInfix,
      fun apart => List.IsChain.infix apart (List.prefix_append _ _).isInfix⟩
  · simp only [apart_iff_map, List.map_append]
    exact ⟨id, id⟩

namespace Cut

variable {t s : Text} (cut : Cut t s)
include cut

/-- Nothing is left of a text that does not show, and otherwise the rest shows. -/
theorem all_blank : t.all isMarkupBlank = s.all isMarkupBlank ∧ (s = [] ∨ s.all isMarkupBlank = false) := by
  by_cases none : s = []
  · refine ⟨?_, .inl none⟩
    rw [← all_collapse, none, List.all_nil, List.all_eq_true]
    intro c member
    rcases cut.kept c member with inside | rfl
    · rw [none] at inside
      cases inside
    · rfl
  · obtain ⟨c, member, other⟩ := cut.ends none
    have visible : isMarkupBlank c = false := by
      by_contra blank
      rw [(squeezed_collapse t).space c (cut.part.subset member) (by simpa using blank)] at other
      cases other
    have shows {u : Text} (inside : c ∈ u) : u.all isMarkupBlank = false :=
      List.all_eq_false.mpr ⟨c, inside, by simp [visible]⟩
    rw [← all_collapse, shows member, shows (cut.part.subset member)]
    exact ⟨rfl, .inr rfl⟩

theorem inlineAll_remainder : inlineAll (remainder s) = Text.escapeContent s := by
  rcases remainder_cases s with ⟨rfl, left⟩ | ⟨-, left⟩
  · rw [left, inlineAll]
    rfl
  · rw [left, inlineAll, inlineAll, inline_text, collapse_of_infix cut.part, List.append_nil]

theorem mem_remainder : ∀ m ∈ remainder s, ∃ u, m = .text u ∧ u ≠ [] ∧ textIn false u = u := by
  intro m member
  rcases remainder_cases s with ⟨-, left⟩ | ⟨some, left⟩
  · rw [left] at member
    cases member
  · rw [left] at member
    have visible := cut.all_blank.2.resolve_left some
    exact ⟨s, List.mem_singleton.mp member, some, textIn_of_exists (by simpa using visible) false⟩

theorem showsBreaks_append (rest : List Node) :
    showsBreaks (remainder s ++ rest) = showsBreaks (.text t :: rest) ∧
      showsBreaks (rest ++ remainder s) = showsBreaks (rest ++ [.text t]) := by
  obtain ⟨same, cases_⟩ := cut.all_blank
  rw [showsBreaks_text_cons, showsBreaks_concat_text, same]
  rcases remainder_cases s with ⟨rfl, left⟩ | ⟨-, left⟩ <;> rw [left]
  · simp
  · exact ⟨showsBreaks_text_cons s rest, showsBreaks_concat_text rest s⟩

end Cut

theorem cut_left (t : Text) : Cut t ((collapse t).dropWhile (· == ' ')) where
  part := (List.dropWhile_suffix _).isInfix
  kept c member := by
    rw [← List.takeWhile_append_dropWhile (p := (· == ' ')) (l := collapse t)] at member
    rcases List.mem_append.mp member with first | second
    · exact .inr (by simpa using List.mem_takeWhile_imp first)
    · exact .inl second
  ends some := by
    obtain ⟨c, more, here⟩ := List.exists_cons_of_ne_nil some
    exact ⟨c, by rw [here]; exact List.mem_cons_self, head?_dropWhile _ c (by rw [here]; rfl)⟩

theorem cut_right (t : Text) : Cut t ((collapse t).rdropWhile (· == ' ')) where
  part := (List.rdropWhile_prefix _ _).isInfix
  kept c member := by
    rw [← List.rdropWhile_append_rtakeWhile (p := (· == ' ')) (l := collapse t)] at member
    rcases List.mem_append.mp member with first | second
    · exact .inl first
    · exact .inr (by simpa using List.mem_rtakeWhile_imp second)
  ends some := by
    obtain ⟨c, last⟩ : ∃ c, c ∈ ((collapse t).rdropWhile (· == ' ')).getLast? :=
      ⟨_, List.getLast?_eq_some_getLast some⟩
    exact ⟨c, List.mem_of_mem_getLast? last, getLast?_rdropWhile _ c last⟩

theorem inlineAll_append (ns ms : List Node) : inlineAll (ns ++ ms) = inlineAll ns ++ inlineAll ms := by
  simp [inlineAll_eq]

theorem exists_text_of_isText {n : Node} (isText : n.isText = true) : ∃ t, n = .text t := by
  cases n <;> first | exact ⟨_, rfl⟩ | cases isText

include content

/-- Content without the spaces before it. -/
theorem exists_trimmed_left : ∃ ms, Content style ms ∧ showsBreaks ms = showsBreaks ns ∧
    (ns = [] → ms = []) ∧ inlineAll ms = (inlineAll ns).dropWhile (· == ' ') := by
  cases ns with
  | nil => exact ⟨[], content, rfl, id, by rw [inlineAll]; rfl⟩
  | cons n rest =>
    by_cases isText : n.isText = true
    · obtain ⟨t, rfl⟩ := exists_text_of_isText isText
      have cut := cut_left t
      obtain ⟨next, -⟩ := List.isChain_cons.mp content.apart
      have start : ∀ c ∈ (inlineAll rest).head?, (c == ' ') = false := by
        cases rest with
        | nil => rw [inlineAll]; simp
        | cons m more =>
          have other : m.isText = false := by simpa [Node.isText] using next m rfl
          obtain ⟨behind, written⟩ := List.head?_eq_some_iff.mp (ends_inline other).1
          rw [inlineAll, written]
          simp
      refine ⟨_, content.of_parts ((apart_remainder t _).1 content.apart) ?_,
        (cut.showsBreaks_append rest).1, by simp, ?_⟩
      · intro m member
        rcases List.mem_append.mp member with left | behind
        · exact .inr (cut.mem_remainder m left)
        · exact .inl (List.mem_cons_of_mem _ behind)
      · rw [inlineAll_append, cut.inlineAll_remainder, inlineAll, inline_text,
          dropWhile_append_of_head? _ start, Text.dropWhile_escapeContent]
    · have other : n.isText = false := by simpa using isText
      obtain ⟨more, written⟩ := List.head?_eq_some_iff.mp (ends_inline other).1
      refine ⟨n :: rest, content, rfl, id, ?_⟩
      rw [inlineAll, written, List.cons_append, List.dropWhile_cons_of_neg (by decide)]

/-- Content without the spaces behind it. -/
theorem exists_trimmed_right : ∃ ms, Content style ms ∧ showsBreaks ms = showsBreaks ns ∧
    (ns = [] → ms = []) ∧ inlineAll ms = (inlineAll ns).rdropWhile (· == ' ') := by
  rcases List.eq_nil_or_concat ns with rfl | ⟨front, n, rfl⟩
  · exact ⟨[], content, rfl, id, by rw [inlineAll]; rfl⟩
  rw [List.concat_eq_append] at content ⊢
  have last : inlineAll [n] = inline n := by rw [inlineAll, inlineAll, List.append_nil]
  by_cases isText : n.isText = true
  · obtain ⟨t, rfl⟩ := exists_text_of_isText isText
    have cut := cut_right t
    have ends : ∀ c ∈ (inlineAll front).getLast?, (c == ' ') = false := by
      rcases List.eq_nil_or_concat front with rfl | ⟨before, m, rfl⟩
      · rw [inlineAll]
        simp
      · rw [List.concat_eq_append] at content ⊢
        have other : m.isText = false := by
          have joint := (List.isChain_append.mp content.apart).2.2 m (by simp) (.text t) rfl
          simpa [Node.isText] using joint
        obtain ⟨behind, written⟩ := List.getLast?_eq_some_iff.mp (ends_inline other).2
        rw [inlineAll_append, inlineAll, inlineAll, written]
        simp
    refine ⟨_, content.of_parts ((apart_remainder t _).2 content.apart) ?_,
      (cut.showsBreaks_append front).2, by simp, ?_⟩
    · intro m member
      rcases List.mem_append.mp member with before | left
      · exact .inl (List.mem_append_left _ before)
      · exact .inr (cut.mem_remainder m left)
    · rw [inlineAll_append, inlineAll_append, cut.inlineAll_remainder, last, inline_text,
        rdropWhile_append_of_getLast? _ ends, Text.rdropWhile_escapeContent]
  · have other : n.isText = false := by simpa using isText
    obtain ⟨more, written⟩ := List.getLast?_eq_some_iff.mp (ends_inline other).2
    refine ⟨front ++ [n], content, rfl, id, ?_⟩
    rw [inlineAll_append, last, written, ← List.append_assoc,
      List.rdropWhile_concat_neg (· == ' ') _ '>' (by decide)]

/-- Content without the spaces around it is the content of a line again. -/
theorem exists_trimmed : ∃ ms, Content style ms ∧ showsBreaks ms = showsBreaks ns ∧
    (ns = [] → ms = []) ∧ inlineAll ms = (inlineAll ns).trimSpaces := by
  obtain ⟨ms, middle, same, none, left⟩ := exists_trimmed_left content
  obtain ⟨ks, final, kept, empty, right⟩ := exists_trimmed_right middle
  refine ⟨ks, final, kept.trans same, fun nil => empty (none nil), ?_⟩
  rw [right, left]
  rfl

end Trimming

/-! ## A line break behind content -/

theorem collapse_textIn {t : Text} (some : t ≠ []) : collapse (textIn false t) = collapse t := by
  by_cases blank : t.all isMarkupBlank = true
  · have space {u : Text} (some : u ≠ []) (blank : u.all isMarkupBlank = true) : collapse u = [' '] :=
      (Text.squeeze_of_all (List.all_eq_true.mp blank)).trans (if_neg (by simpa using some))
    rw [space some blank, textIn, blank]
    split
    · split <;> rfl
    · exact space some blank
  · exact congrArg collapse (textIn_of_exists (by simpa using blank) false)

theorem all_textIn (t : Text) : (textIn false t).all isMarkupBlank = t.all isMarkupBlank := by
  unfold textIn
  split
  · next blank =>
    rw [(Bool.and_eq_true_iff.mp blank).2]
    split <;> rfl
  · rfl

/-- Nodes are split before the text that they end with, if there is one. -/
theorem exists_front {ms : List Node} (tidy : Tidy ms) :
    ∃ front t, ms = front ++ remainder t ∧ Apart (front ++ [.text t]) := by
  rcases List.eq_nil_or_concat ms with rfl | ⟨front, m, rfl⟩
  · exact ⟨[], [], rfl, .singleton _⟩
  rw [List.concat_eq_append] at tidy ⊢
  by_cases isText : m.isText = true
  · obtain ⟨t, rfl⟩ := exists_text_of_isText isText
    have left := (remainder_cases t).resolve_left fun empty => tidy.some t (by simp) empty.1
    exact ⟨front, t, by rw [left.2], tidy.apart⟩
  · refine ⟨front ++ [m], [], (List.append_nil _).symm, ?_⟩
    refine List.isChain_append.mpr ⟨tidy.apart, .singleton _, fun k last _ _ both => isText ?_⟩
    rw [List.getLast?_concat] at last
    exact Option.mem_some.mp last ▸ both.1

/-- A line break behind nodes makes a text, or goes with the last one; on a line it is a space. -/
theorem exists_withBreak {ms : List Node} (tidy : Tidy ms) (counted : ms.map (Node.counted false) = ms) :
    ∃ ks, Tidy ks ∧ (∀ p : Progress, p.putAll ks = (p.putAll ms).push ['\n']) ∧
      showsBreaks (ks.map (Node.counted false)) = showsBreaks ms ∧
        (inlineAll (ks.map (Node.counted false))).trimSpaces = (inlineAll ms).trimSpaces := by
  obtain ⟨front, t, rfl, apart⟩ := exists_front tidy
  have same : front.map (Node.counted false) = front := by
    rw [List.map_append] at counted
    exact (List.append_inj counted (List.length_map _)).1
  have whole : (front ++ [Node.text (t ++ ['\n'])]).map (Node.counted false) =
      front ++ [.text (textIn false (t ++ ['\n']))] := by
    rw [List.map_append, same]
    rfl
  have before : inlineAll (front ++ remainder t) = inlineAll front ++ Text.escapeContent (collapse t) := by
    rw [inlineAll_append]
    rcases remainder_cases t with ⟨rfl, left⟩ | ⟨-, left⟩ <;> rw [left]
    · rw [inlineAll]
      rfl
    · rw [inlineAll, inlineAll, inline_text, List.append_nil]
  have after : inlineAll (front ++ [.text (textIn false (t ++ ['\n']))]) =
      inlineAll front ++ Text.escapeContent (collapse (t ++ ['\n'])) := by
    rw [inlineAll_append, inlineAll, inlineAll, inline_text, collapse_textIn (by simp), List.append_nil]
  refine ⟨front ++ [.text (t ++ ['\n'])], ⟨?_, ?_⟩, fun p => ?_, ?_, ?_⟩
  · rw [apart_iff_map, List.map_append] at apart ⊢
    exact apart
  · intro u member
    rcases List.mem_append.mp member with inside | here
    · exact tidy.some u (List.mem_append_left _ inside)
    · simp [Node.text.inj (List.mem_singleton.mp here)]
  · rw [Progress.putAll, Progress.putAll, List.foldl_append, List.foldl_append]
    rcases remainder_cases t with ⟨rfl, left⟩ | ⟨-, left⟩ <;> rw [left]
    · rfl
    · exact (Progress.push_push _ t ['\n']).symm
  · rw [whole, showsBreaks_concat_text, all_textIn, List.all_append]
    rcases remainder_cases t with ⟨rfl, left⟩ | ⟨-, left⟩ <;> rw [left]
    · simp [isMarkupBlank]
    · rw [showsBreaks_concat_text]
      simp [isMarkupBlank]
  · rw [whole, before, after]
    rcases Text.squeeze_concat (show isMarkupBlank '\n' = true from rfl) t with stays | space
    · rw [collapse, stays]
      rfl
    · rw [collapse, space, Text.escapeContent_append, ← List.append_assoc]
      exact Text.trimSpaces_concat_space _

end StaticSite.Markup
