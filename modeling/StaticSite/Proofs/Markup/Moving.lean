import StaticSite.Markup.Layout
import StaticSite.Proofs.Markup.Raw
import StaticSite.Proofs.Text.Words

/-! # Moving raw content

Content of a raw element that is moved by lines keeps its words, and its words decide whether it has
an end tag.
-/

namespace StaticSite

/-- The numbers of the blanks. -/
def blankNumbers : List Nat := [
  9, 10, 11, 12, 13, 28, 29, 30, 31, 32, 0x85, 0xa0, 0x1680, 0x2000, 0x2001, 0x2002, 0x2003, 0x2004,
  0x2005, 0x2006, 0x2007, 0x2008, 0x2009, 0x200a, 0x2028, 0x2029, 0x202f, 0x205f, 0x3000]

theorem toNat_mem_blankNumbers {c : Char} (blank : isBlank c = true) : c.toNat ∈ blankNumbers := by
  simp only [isBlank, Bool.or_eq_true, Bool.and_eq_true, decide_eq_true_eq, beq_iff_eq] at blank
  simp only [blankNumbers, List.mem_cons, List.not_mem_nil, or_false]
  omega

/-- A blank has no case. -/
theorem lowerChar_of_isBlank {c : Char} (blank : isBlank c = true) : Text.lowerChar c = c := by
  have all : ∀ n ∈ blankNumbers, Text.lowerChar (Char.ofNat n) = Char.ofNat n := by decide +kernel
  have here := all c.toNat (toNat_mem_blankNumbers blank)
  rwa [Char.ofNat_toNat] at here

namespace Markup

namespace Mark

/-- The mark behind a blank. -/
def settled : Mark → Mark
  | .slashed => .slashed
  | .named [] => .named []
  | _ => .outside

theorem settled_settled (m : Mark) : m.settled.settled = m.settled := by
  cases m with
  | named rest => cases rest <;> rfl
  | _ => rfl

/-- Whether no blank is left of the name. -/
def Visible : Mark → Prop
  | .named rest => ∀ c ∈ rest, isBlank c = false
  | _ => True

variable {name : Text} (word : ∀ c ∈ name, isBlank c = false)

theorem visible_restart (c : Char) : (restart c).Visible := by
  unfold restart
  split <;> trivial

theorem Visible.settled {m : Mark} (visible : m.Visible) : m.settled.Visible := by
  cases m with
  | named rest =>
    cases rest with
    | nil => exact visible
    | cons n more => trivial
  | _ => trivial

theorem next_blank {m : Mark} (visible : m.Visible) {c : Char} (blank : isBlank c = true) :
    next name m c = some m.settled := by
  have restarts : restart c = .outside := by
    refine restart_of_ne ?_
    rintro rfl
    exact absurd blank (by decide)
  cases m with
  | outside => exact congrArg some restarts
  | opened =>
    have noSlash : c ≠ '/' := by
      rintro rfl
      exact absurd blank (by decide)
    rw [next, if_neg noSlash, restarts]
    rfl
  | slashed => exact if_pos blank
  | named rest =>
    cases rest with
    | nil => exact if_pos blank
    | cons n more =>
      have other : Text.lowerChar c ≠ n := by
        rintro rfl
        have shown := visible _ List.mem_cons_self
        rw [lowerChar_of_isBlank blank, blank] at shown
        cases shown
      rw [next, if_neg other, restarts]
      rfl

include word

theorem Visible.next {m n : Mark} (visible : m.Visible) {c : Char}
    (step : Mark.next name m c = some n) : n.Visible := by
  cases m with
  | outside => exact Option.some.inj step ▸ visible_restart c
  | opened =>
    rw [Mark.next] at step
    obtain rfl := Option.some.inj step
    split
    · trivial
    · exact visible_restart c
  | slashed =>
    by_cases blank : isBlank c = true
    · rw [next_blank visible blank] at step
      obtain rfl := Option.some.inj step
      trivial
    · unfold Mark.next at step
      dsimp only at step
      rw [if_neg blank] at step
      cases name with
      | nil =>
        obtain rfl := Option.some.inj step
        exact visible_restart c
      | cons n rest =>
        obtain rfl := Option.some.inj step
        split
        · exact fun d member => word d (List.mem_cons_of_mem n member)
        · exact visible_restart c
  | named rest =>
    cases rest with
    | nil =>
      by_cases blank : isBlank c = true
      · rw [next_blank visible blank] at step
        obtain rfl := Option.some.inj step
        exact visible
      · rw [Mark.next, if_neg blank] at step
        split at step
        · cases step
        · obtain rfl := Option.some.inj step
          exact visible_restart c
    | cons n more =>
      rw [Mark.next] at step
      obtain rfl := Option.some.inj step
      split
      · exact fun d member => visible d (List.mem_cons_of_mem n member)
      · exact visible_restart c

theorem Visible.run {m n : Mark} (visible : m.Visible) {t : Text}
    (runs : Mark.run name m t = some n) : n.Visible := by
  induction t generalizing m with
  | nil =>
    obtain rfl := Option.some.inj runs
    exact visible
  | cons c rest ih =>
    rw [run_cons] at runs
    obtain ⟨k, step, later⟩ := Option.bind_eq_some_iff.mp runs
    exact ih (visible.next word step) later

end Mark

/-- Contents of the same words have end tags alike. -/
theorem RawContent.of_words {name : Text} (raw : name ∈ rawElements) {s t : Text}
    (content : RawContent name s) (same : Text.words s = Text.words t) : RawContent name t := by
  have word : ∀ c ∈ name, isBlank c = false := by
    clear content same
    revert name
    decide
  have alike := Text.read_eq_of_words (fun (m : { m : Mark // m.Visible }) t =>
    (Mark.run name m.1.settled t).isSome) (fun m c t blank => ?_) (fun m w => ?_) same
    ⟨.outside, trivial⟩
  · exact alike.symm.trans content
  · rw [Mark.run_cons, Mark.next_blank m.2.settled blank, Option.bind_some, Mark.settled_settled]
  · cases runs : Mark.run name m.1.settled w with
    | none =>
      refine ⟨fun _ => false, m, rfl, fun c t blank => ?_⟩
      rw [Mark.run_append, runs]
      rfl
    | some k =>
      have visible : k.Visible := m.2.settled.run word runs
      refine ⟨id, ⟨k, visible⟩, rfl, fun c t blank => ?_⟩
      rw [Mark.run_append, runs, Option.bind_some, Mark.run_cons, Mark.next_blank visible blank]
      rfl

/-- Moving a text by lines keeps its words. -/
theorem words_movedLines {indent : Text} (blanks : ∀ c ∈ indent, isBlank c = true) (body : Text) :
    (movedLines indent body).flatMap Text.words = Text.words body := by
  have lines (ls : List Text) :
      (ls.map fun line => if line.isEmpty then [] else indent ++ line).flatMap Text.words =
        ls.flatMap Text.words := by
    rw [List.flatMap_map]
    refine List.flatMap_congr fun line _ => ?_
    by_cases empty : line = []
    · subst empty
      rfl
    · rw [if_neg (by simpa using empty), Text.words_blanks_append blanks]
  have trimmed : (Text.trimLines ((Text.lines body).map (Text.trimRight isBlank))).flatMap Text.words =
      Text.words body := by
    rw [Text.words_trimLines, List.flatMap_map, ← Text.words_lines body]
    exact List.flatMap_congr fun line _ => Text.words_trimRight line
  rw [movedLines, lines, Text.words_dedent, ← trimmed]
  split
  · next empty =>
    rw [List.isEmpty_iff.mp empty]
    rfl
  · rfl

end Markup

end StaticSite
