import Mathlib.Data.List.Chain
import StaticSite.Stylesheet.Lexeme

/-! # Reading lexemes back

A list of lexemes is `Lexed` when writing their texts one after the other and reading them again
gives the same list. Reading a text gives such a list, unless a comment or a string does not end,
and pieces of a lexed list are lexed.
-/

namespace StaticSite.Stylesheet

/-- A text that a comment can hold: the end of the comment does not occur in it. -/
@[grind =] def CommentBody : Text → Prop
  | '*' :: '/' :: _ => False
  | _ :: rest => CommentBody rest
  | [] => True

/-- A text that a string can hold: its quote stands behind a backslash only, and no backslash stands
alone at the end. -/
@[grind =] def QuotedBody (quote : Char) : Text → Prop
  | '\\' :: _ :: rest => QuotedBody quote rest
  | ['\\'] => False
  | c :: rest => c ≠ quote ∧ QuotedBody quote rest
  | [] => True

namespace Lexeme

/-- A lexeme that can be read back: its text is complete. -/
def Whole : Lexeme → Prop
  | .comment body => CommentBody body
  | .quoted quote body => isQuote quote = true ∧ QuotedBody quote body
  | .char c => isQuote c = false
  | .openComment _ | .openQuoted _ _ => False

/-- Neighbours that do not start a comment together. -/
def Apart (a b : Lexeme) : Prop := ¬ (a = .char '/' ∧ b = .char '*')

end Lexeme

/-- Lexemes that are read back as they are written. -/
def Lexed (ls : List Lexeme) : Prop := (∀ l ∈ ls, l.Whole) ∧ ls.IsChain Lexeme.Apart

theorem lexed_cons {l : Lexeme} {ls : List Lexeme} :
    Lexed (l :: ls) ↔ l.Whole ∧ (∀ m ∈ ls.head?, Lexeme.Apart l m) ∧ Lexed ls := by
  simp only [Lexed, List.forall_mem_cons, List.isChain_cons]
  tauto

theorem lexed_singleton {l : Lexeme} (whole : l.Whole) : Lexed [l] :=
  lexed_cons.mpr ⟨whole, by simp, by simp, .nil⟩

theorem Lexed.within {ls ms : List Lexeme} (lexed : Lexed ls) (within : ms <:+: ls) : Lexed ms :=
  ⟨fun l member => lexed.1 l (within.subset member), List.IsChain.infix lexed.2 within⟩

theorem lexed_append {ls ms : List Lexeme} (left : Lexed ls) (right : Lexed ms)
    (joint : ∀ l ∈ ls.getLast?, ∀ m ∈ ms.head?, Lexeme.Apart l m) : Lexed (ls ++ ms) := by
  refine ⟨fun l member => ?_, left.2.append right.2 joint⟩
  rcases List.mem_append.mp member with first | second
  · exact left.1 l first
  · exact right.1 l second

/-- A list whose first lexeme is no asterisk can follow anything. -/
theorem lexed_append_of_head? {ls ms : List Lexeme} (left : Lexed ls) (right : Lexed ms)
    (head : ms.head? ≠ some (.char '*')) : Lexed (ls ++ ms) :=
  lexed_append left right fun _ _ _ first star => head (star.2 ▸ first)

/-! ## One character at a time -/

theorem lexemesFrom_outside_cons {c : Char} {rest : Text}
    (plain : ¬ (c = '/' ∧ rest.head? = some '*')) (noQuote : isQuote c = false) :
    lexemesFrom .outside (c :: rest) = .char c :: lexemesFrom .outside rest := by
  rw [lexemesFrom]
  · simp [noQuote]
  · rintro more rfl rfl
    simp at plain

theorem lexemesFrom_inComment_cons {c : Char} {rest : Text}
    (goesOn : ¬ (c = '*' ∧ rest.head? = some '/')) (seen : Text) :
    lexemesFrom (.inComment seen) (c :: rest) = lexemesFrom (.inComment (c :: seen)) rest := by
  rw [lexemesFrom]
  rintro more rfl rfl
  simp at goesOn

theorem lexemesFrom_inQuoted_cons {quote c : Char} {rest : Text} (plain : c ≠ '\\')
    (other : c ≠ quote) (seen : Text) :
    lexemesFrom (.inQuoted quote seen) (c :: rest) =
      lexemesFrom (.inQuoted quote (c :: seen)) rest := by
  rw [lexemesFrom, if_neg other]
  exact fun _ _ backslash => absurd backslash plain

theorem lexemesFrom_outside_quote {quote : Char} (opens : isQuote quote = true) (rest : Text) :
    lexemesFrom .outside (quote :: rest) = lexemesFrom (.inQuoted quote []) rest := by
  rw [lexemesFrom, if_pos opens]
  rintro more rfl
  exact absurd opens (by decide)

theorem lexemesFrom_inQuoted_end {quote : Char} (plain : quote ≠ '\\') (seen rest : Text) :
    lexemesFrom (.inQuoted quote seen) (quote :: rest) =
      .quoted quote seen.reverse :: lexemesFrom .outside rest := by
  rw [lexemesFrom, if_pos rfl]
  exact fun _ _ backslash => absurd backslash plain

/-- A character that is read first stands at the start of the text. -/
theorem head?_of_head?_lexemes {t : Text} {c : Char}
    (first : (lexemes t).head? = some (.char c)) : t.head? = some c := by
  obtain ⟨rest, split⟩ := List.head?_eq_some_iff.mp first
  have whole := flatMap_text_lexemes t
  rw [split] at whole
  simp [← whole, Lexeme.text]

/-! ## Comments and strings -/

theorem lexemesFrom_inComment_append {body : Text} (inside : CommentBody body)
    (seen rest : Text) :
    lexemesFrom (.inComment seen) (body ++ '*' :: '/' :: rest) =
      .comment (seen.reverse ++ body) :: lexemesFrom .outside rest := by
  fun_induction CommentBody body generalizing seen with
  | case1 => exact inside.elim
  | case2 c more goesOn ih =>
    have next : ¬ (c = '*' ∧ (more ++ '*' :: '/' :: rest).head? = some '/') := by
      rintro ⟨star, slash⟩
      cases more with
      | nil => simp at slash
      | cons d others => exact goesOn others star (by simpa using slash)
    rw [List.cons_append, lexemesFrom_inComment_cons next, ih inside]
    simp
  | case3 => simp [lexemesFrom]

theorem lexemesFrom_inQuoted_append {quote : Char} (opens : isQuote quote = true) {body : Text}
    (inside : QuotedBody quote body) (seen rest : Text) :
    lexemesFrom (.inQuoted quote seen) (body ++ quote :: rest) =
      .quoted quote (seen.reverse ++ body) :: lexemesFrom .outside rest := by
  fun_induction QuotedBody quote body generalizing seen with
  | case1 c more ih => simp [lexemesFrom, ih inside]
  | case2 => exact inside.elim
  | case3 c more noPair notLast ih =>
    have plain : c ≠ '\\' := by
      rintro rfl
      cases more with
      | nil => exact notLast rfl rfl
      | cons d others => exact noPair d others rfl rfl
    rw [List.cons_append, lexemesFrom_inQuoted_cons plain inside.1, ih inside.2]
    simp
  | case4 =>
    have plain : quote ≠ '\\' := by
      rintro rfl
      exact absurd opens (by decide)
    rw [List.nil_append, lexemesFrom, if_pos rfl]
    · simp
    · exact fun _ _ backslash => absurd backslash plain

/-- Reading in a comment comes to the end of the comment or of the text. -/
theorem lexemesFrom_inComment (seen t : Text) :
    (∃ body rest, CommentBody body ∧ t = body ++ '*' :: '/' :: rest) ∨
      lexemesFrom (.inComment seen) t = [.openComment (seen.reverse ++ t)] := by
  induction t generalizing seen with
  | nil => exact .inr (by simp [lexemesFrom])
  | cons c rest ih =>
    by_cases ends : c = '*' ∧ rest.head? = some '/'
    · obtain ⟨rfl, slash⟩ := ends
      obtain ⟨more, rfl⟩ := List.head?_eq_some_iff.mp slash
      exact .inl ⟨[], more, trivial, rfl⟩
    · rw [lexemesFrom_inComment_cons ends]
      rcases ih (c :: seen) with ⟨body, more, inside, rfl⟩ | endless
      · refine .inl ⟨c :: body, more, ?_, rfl⟩
        rw [CommentBody]
        · exact inside
        · rintro others rfl rfl
          simp at ends
      · exact .inr (by simp [endless])

/-- Reading in a string comes to the end of the string or of the text. -/
theorem lexemesFrom_inQuoted (quote : Char) (seen t : Text) :
    (∃ body rest, QuotedBody quote body ∧ t = body ++ quote :: rest) ∨
      lexemesFrom (.inQuoted quote seen) t = [.openQuoted quote (seen.reverse ++ t)] := by
  generalize within : Mode.inQuoted quote seen = mode
  fun_induction lexemesFrom mode t generalizing seen with
  | case3 =>
    cases within
    exact .inr (by simp)
  | case9 q before c rest ih =>
    cases within
    rcases ih _ rfl with ⟨body, more, inside, rfl⟩ | endless
    · exact .inl ⟨'\\' :: c :: body, more, inside, rfl⟩
    · exact .inr (by simp [endless])
  | case10 q before rest notPair =>
    cases within
    exact .inl ⟨[], rest, trivial, rfl⟩
  | case11 q before c rest notPair other ih =>
    cases within
    rcases ih _ rfl with ⟨body, more, inside, rfl⟩ | endless
    · have plain : c ≠ '\\' := by
        rintro rfl
        cases body with
        | nil => exact notPair quote more rfl rfl
        | cons d others => exact notPair d _ rfl rfl
      refine .inl ⟨c :: body, more, ?_, rfl⟩
      rw [QuotedBody]
      · exact ⟨other, inside⟩
      · exact fun _ _ backslash => absurd backslash plain
      · exact fun backslash => absurd backslash plain
    · exact .inr (by simp [endless])
  | _ => cases within

/-! ## Whole texts -/

/-- A whole lexeme is read back. -/
theorem lexemesFrom_text_append {l : Lexeme} (whole : l.Whole) {rest : Text}
    (apart : ¬ (l = .char '/' ∧ rest.head? = some '*')) :
    lexemesFrom .outside (l.text ++ rest) = l :: lexemesFrom .outside rest := by
  cases l with
  | comment body =>
    have read := lexemesFrom_inComment_append whole [] rest
    simp only [List.reverse_nil, List.nil_append] at read
    simp [Lexeme.text, lexemesFrom, read]
  | quoted quote body =>
    have read := lexemesFrom_inQuoted_append whole.1 whole.2 [] rest
    simp only [List.reverse_nil, List.nil_append] at read
    simp only [Lexeme.text, List.cons_append, List.append_assoc, List.nil_append]
    rw [lexemesFrom, if_pos whole.1, read]
    rintro more rfl
    exact absurd whole.1 (by decide)
  | char c =>
    refine lexemesFrom_outside_cons ?_ whole
    rintro ⟨rfl, star⟩
    exact apart ⟨rfl, star⟩
  | openComment body => exact whole.elim
  | openQuoted quote body => exact whole.elim

/-- The first of lexed lexemes does not start a comment together with the text of the others. -/
theorem Lexed.apart_text {l : Lexeme} {rest : List Lexeme} (lexed : Lexed (l :: rest))
    (some : rest ≠ []) (t : Text) :
    ¬ (l = .char '/' ∧ (rest.flatMap Lexeme.text ++ t).head? = Option.some '*') := by
  obtain ⟨-, separate, others⟩ := lexed_cons.mp lexed
  rintro ⟨rfl, star⟩
  obtain ⟨m, more, rfl⟩ := List.exists_cons_of_ne_nil some
  have separate := separate m rfl
  have readable := others.1 m List.mem_cons_self
  cases m <;> simp_all [Lexeme.Apart, Lexeme.text, Lexeme.Whole, isQuote]

/-- Lexed lexemes are read back from a text that they start, where the last one does not start a
comment together with what stands behind it. -/
theorem lexemes_append_of_getLast? {ls : List Lexeme} (lexed : Lexed ls) {t : Text}
    (apart : ¬ (ls.getLast? = some (.char '/') ∧ t.head? = some '*')) :
    lexemes (ls.flatMap Lexeme.text ++ t) = ls ++ lexemes t := by
  induction ls with
  | nil => rfl
  | cons l rest ih =>
    obtain ⟨whole, -, others⟩ := lexed_cons.mp lexed
    have next : ¬ (l = .char '/' ∧ (rest.flatMap Lexeme.text ++ t).head? = some '*') := by
      by_cases none : rest = []
      · subst none
        exact fun ⟨slash, star⟩ => apart ⟨by rw [slash]; rfl, star⟩
      · exact lexed.apart_text none t
    have later : ¬ (rest.getLast? = some (.char '/') ∧ t.head? = some '*') := by
      rintro ⟨slash, star⟩
      refine apart ⟨?_, star⟩
      rw [List.getLast?_cons, slash]
      rfl
    rw [List.flatMap_cons, List.append_assoc, List.cons_append, lexemes,
      lexemesFrom_text_append whole next]
    exact congrArg (l :: ·) (ih others later)

/-- Lexed lexemes are read back from a text that they start. -/
theorem lexemes_append {ls : List Lexeme} (lexed : Lexed ls) {t : Text}
    (apart : t.head? ≠ some '*') :
    lexemes (ls.flatMap Lexeme.text ++ t) = ls ++ lexemes t :=
  lexemes_append_of_getLast? lexed fun both => apart both.2

/-- Lexed lexemes are read back from their texts. -/
theorem lexemes_flatMap_text {ls : List Lexeme} (lexed : Lexed ls) :
    lexemes (ls.flatMap Lexeme.text) = ls := by
  simpa [lexemes, lexemesFrom] using lexemes_append lexed (t := []) (by simp)

/-- Whether a lexeme is a comment or a string that does not end. -/
def Lexeme.isOpen : Lexeme → Bool
  | .openComment _ | .openQuoted _ _ => true
  | _ => false

theorem Lexeme.Whole.isOpen {l : Lexeme} (whole : l.Whole) : l.isOpen = false := by
  cases l with
  | openComment body => exact whole.elim
  | openQuoted quote body => exact whole.elim
  | _ => rfl

/-- A text is empty, or its first lexeme is whole and the rest is read on its own, or it starts with
a comment or a string that does not end. -/
theorem lexemes_cases (t : Text) :
    t = [] ∨
      (∃ (l : Lexeme) (rest : Text), l.Whole ∧ t = l.text ++ rest ∧
        ¬ (l = .char '/' ∧ rest.head? = some '*')) ∨
      ∃ l : Lexeme, lexemes t = [l] ∧ l.isOpen = true := by
  cases t with
  | nil => exact .inl rfl
  | cons c rest =>
    by_cases comment : c = '/' ∧ rest.head? = some '*'
    · obtain ⟨rfl, star⟩ := comment
      obtain ⟨inner, rfl⟩ := List.head?_eq_some_iff.mp star
      rcases lexemesFrom_inComment [] inner with ⟨body, more, inside, rfl⟩ | endless
      · exact .inr (.inl ⟨.comment body, more, inside, by simp [Lexeme.text], by simp⟩)
      · exact .inr (.inr ⟨_, by rw [lexemes, lexemesFrom, endless], rfl⟩)
    · by_cases opens : isQuote c = true
      · rcases lexemesFrom_inQuoted c [] rest with ⟨body, more, inside, rfl⟩ | endless
        · exact .inr (.inl ⟨.quoted c body, more, ⟨opens, inside⟩, by simp [Lexeme.text], by simp⟩)
        · refine .inr (.inr ⟨.openQuoted c rest, ?_, rfl⟩)
          rw [lexemes, lexemesFrom, if_pos opens, endless]
          · rfl
          · rintro more rfl rfl
            simp at comment
      · exact .inr (.inl ⟨.char c, rest, by simpa [Lexeme.Whole] using opens, rfl,
          by simpa using comment⟩)

/-- Reading gives lexemes that can be read back, where every comment and every string ends. -/
theorem lexed_lexemes {t : Text} (complete : ∀ l ∈ lexemes t, l.isOpen = false) :
    Lexed (lexemes t) := by
  induction length : t.length using Nat.strong_induction_on generalizing t with
  | _ n ih =>
    rcases lexemes_cases t with rfl | ⟨l, rest, whole, rfl, apart⟩ | ⟨l, read, endless⟩
    · exact ⟨by simp [lexemes, lexemesFrom], .nil⟩
    · have read : lexemes (l.text ++ rest) = l :: lexemes rest := lexemesFrom_text_append whole apart
      rw [read] at complete ⊢
      have shorter : rest.length < n := by
        cases l <;> simp_all [Lexeme.text] <;> omega
      refine lexed_cons.mpr ⟨whole, ?_, ih _ shorter (List.forall_mem_cons.mp complete).2 rfl⟩
      rintro m first ⟨rfl, rfl⟩
      exact apart ⟨rfl, head?_of_head?_lexemes first⟩
    · have := complete l (by simp [read])
      simp [endless] at this

end StaticSite.Stylesheet
