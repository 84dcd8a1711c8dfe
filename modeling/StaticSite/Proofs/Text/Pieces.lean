import Mathlib.Data.List.Forall2
import StaticSite.Text.Lines
import StaticSite.Widget.Element

/-! # Pieces of a text

Pieces that a text is joined from stand in it, one behind the other and in their order.
-/

namespace StaticSite

namespace Text

/-- The number of places where a piece stands in a text. -/
def occurrences (piece t : Text) : Nat := t.tails.countP piece.isPrefixOf

theorem joinWith_cons {separator t : Text} {rest : List Text} (more : rest ≠ []) :
    joinWith separator (t :: rest) = t ++ (separator ++ joinWith separator rest) := by
  cases rest with
  | nil => exact absurd rfl more
  | cons second others => simp [joinWith]

theorem joinWith_append {separator : Text} {ts us : List Text} (first : ts ≠ []) (second : us ≠ []) :
    joinWith separator (ts ++ us) =
      joinWith separator ts ++ (separator ++ joinWith separator us) := by
  induction ts with
  | nil => exact absurd rfl first
  | cons t rest ih =>
    by_cases last : rest = []
    · subst last
      exact joinWith_cons second
    · rw [List.cons_append, joinWith_cons (by simp [last]), joinWith_cons last, ih last]
      simp only [List.append_assoc]

theorem unlines_cons (line : Text) {rest : List Text} (more : rest ≠ []) :
    unlines (line :: rest) = line ++ '\n' :: unlines rest := joinWith_cons more

theorem unlines_append {ls ms : List Text} (first : ls ≠ []) (second : ms ≠ []) :
    unlines (ls ++ ms) = unlines ls ++ '\n' :: unlines ms := joinWith_append first second

/-- Texts that are joined stand among others as one text. -/
theorem joinWith_splice (separator : Text) (before behind : List Text) {ts : List Text}
    (some : ts ≠ []) : joinWith separator (before ++ joinWith separator ts :: behind) =
      joinWith separator (before ++ (ts ++ behind)) := by
  have inside : joinWith separator (joinWith separator ts :: behind) =
      joinWith separator (ts ++ behind) := by
    by_cases last : behind = []
    · subst last
      rw [List.append_nil]
      rfl
    · rw [joinWith_cons last, joinWith_append some last]
  by_cases first : before = []
  · subst first
    exact inside
  · rw [joinWith_append first (by simp), joinWith_append first (by simp [some]), inside]

theorem prefix_joinWith (separator : Text) (ts us : List Text) :
    joinWith separator ts <+: joinWith separator (ts ++ us) := by
  induction ts with
  | nil => exact List.nil_prefix
  | cons t rest ih =>
    by_cases last : rest = []
    · subst last
      cases us with
      | nil => exact List.prefix_rfl
      | cons u others =>
        rw [List.singleton_append, joinWith_cons (List.cons_ne_nil u others)]
        exact List.prefix_append t _
    · rw [List.cons_append, joinWith_cons last, joinWith_cons (by simp [last])]
      rw [List.prefix_append_right_inj, List.prefix_append_right_inj]
      exact ih

theorem joinWith_ne_nil (separator : Text) {t : Text} (shows : t ≠ []) (rest : List Text) :
    joinWith separator (t :: rest) ≠ [] := by
  intro empty
  have start : t <+: joinWith separator (t :: rest) := prefix_joinWith separator [t] rest
  exact shows (List.prefix_nil.mp (empty ▸ start))

theorem suffix_joinWith (separator : Text) (ts : List Text) {us : List Text} (some : us ≠ []) :
    joinWith separator us <:+ joinWith separator (ts ++ us) := by
  induction ts with
  | nil => exact List.suffix_rfl
  | cons t rest ih =>
    rw [List.cons_append, joinWith_cons (by simp [some]), ← List.append_assoc]
    exact ih.trans (List.suffix_append ..)

/-- Texts in a row among others are joined in a row. -/
theorem infix_joinWith {separator : Text} {ts us : List Text} (among : ts <:+: us) :
    joinWith separator ts <:+: joinWith separator us := by
  obtain ⟨before, behind, rfl⟩ := among
  by_cases none : ts = []
  · subst none
    exact List.nil_infix
  · rw [List.append_assoc]
    have some : ts ++ behind ≠ [] := by simp [none]
    exact (prefix_joinWith separator ts behind).isInfix.trans
      (suffix_joinWith separator before some).isInfix

/-- Texts that stand in a text one behind the other, without overlap. -/
inductive InOrder : List Text → Text → Prop
  | nil (t : Text) : InOrder [] t
  | cons {first behind : Text} {rest : List Text} (before : Text) (later : InOrder rest behind) :
      InOrder (first :: rest) (before ++ first ++ behind)

namespace InOrder

theorem append_left {pieces : List Text} {t : Text} (inside : InOrder pieces t) (before : Text) :
    InOrder pieces (before ++ t) := by
  cases inside with
  | nil => exact .nil _
  | @cons first behind rest gap later =>
    have whole : InOrder (first :: rest) (before ++ gap ++ first ++ behind) := .cons (before ++ gap) later
    rwa [List.append_assoc before, List.append_assoc before] at whole

theorem append {ps qs : List Text} {s t : Text} (left : InOrder ps s) (right : InOrder qs t) :
    InOrder (ps ++ qs) (s ++ t) := by
  induction left with
  | nil s => exact right.append_left s
  | cons before _ ih =>
    rw [List.append_assoc]
    exact .cons before ih

theorem append_right {pieces : List Text} {t : Text} (inside : InOrder pieces t) (behind : Text) :
    InOrder pieces (t ++ behind) := by
  simpa using inside.append (.nil behind)

theorem of_infix {pieces : List Text} {s t : Text} (inside : InOrder pieces s) (among : s <:+: t) :
    InOrder pieces t := by
  obtain ⟨before, behind, rfl⟩ := among
  exact (inside.append_left before).append_right behind

theorem joinWith {separator t : Text} {ps qs : List Text} {texts : List Text}
    (first : InOrder ps t) (later : InOrder qs (Text.joinWith separator texts)) :
    InOrder (ps ++ qs) (Text.joinWith separator (t :: texts)) := by
  by_cases last : texts = []
  · subst last
    simpa [Text.joinWith] using first.append later
  · rw [joinWith_cons last]
    exact first.append (later.append_left separator)

end InOrder

end Text

namespace Widget

theorem infix_joinPresent {separator piece : Text} {pieces : List Text} (listed : piece ∈ pieces) :
    piece <:+: joinPresent separator pieces := by
  cases empty : piece.isEmpty with
  | true => exact List.isEmpty_iff.mp empty ▸ List.nil_infix
  | false =>
    have kept : piece ∈ pieces.filter (!·.isEmpty) := List.mem_filter.mpr ⟨listed, by simp [empty]⟩
    obtain ⟨before, behind, split⟩ := List.append_of_mem kept
    have among : [piece] <:+: pieces.filter (!·.isEmpty) := ⟨before, behind, by simp [split]⟩
    exact Text.infix_joinWith among

/-- What stands in texts stands in them joined, with the empty ones left out. -/
theorem inOrder_joinPresent {separator : Text} {pieces : List (List Text)} {texts : List Text}
    (each : List.Forall₂ Text.InOrder pieces texts) :
    Text.InOrder pieces.flatten (joinPresent separator texts) := by
  induction each with
  | nil => exact .nil _
  | @cons ps t _ texts first _ ih =>
    rw [List.flatten_cons]
    cases t with
    | nil => exact first.append ih
    | cons c rest => exact first.joinWith ih

end Widget

end StaticSite
