import StaticSite.Proofs.Stylesheet.Lexing

/-! # Readers in the middle of a text

Behind a beginning of a text a reader is in some mode, and goes on in it whatever the rest of the
text is. Only the first half of a pair waits for the character behind it: a slash or an asterisk may
be part of the delimiter of a comment, and a backslash in a string keeps the next character from
ending it.
-/

namespace StaticSite.Stylesheet

/-- A mode that a reader can be in: only a quote opens a string. -/
def Mode.Valid : Mode → Prop
  | .inQuoted quote _ => isQuote quote = true
  | .outside | .inComment _ => True

theorem Mode.Valid.quote_ne {quote : Char} {seen : Text} (valid : (Mode.inQuoted quote seen).Valid)
    {c : Char} (plain : isQuote c = false) : quote ≠ c := by
  rintro rfl
  exact Bool.eq_false_iff.mp plain valid

/-- What a reader in a mode has seen and not taken yet. -/
inductive Held : Mode → Text → Prop
  | nothing (mode : Mode) : Held mode []
  | slash : Held .outside ['/']
  | star (seen : Text) : Held (.inComment seen) ['*']
  | backslash (quote : Char) (seen : Text) : Held (.inQuoted quote seen) ['\\']

/-- Behind a beginning of a text a reader has made some lexemes, is in a mode and holds the end of
that beginning. -/
structure Reaches (mode : Mode) (a : Text) (ls : List Lexeme) (after : Mode) (held : Text) :
    Prop where
  valid : after.Valid
  holds : Held after held
  ending : held <:+ a
  read : ∀ t, lexemesFrom mode (a ++ t) = ls ++ lexemesFrom after (held ++ t)

theorem Reaches.start {mode : Mode} (valid : mode.Valid) {held : Text} (holds : Held mode held) :
    Reaches mode held [] mode held :=
  ⟨valid, holds, List.suffix_rfl, fun _ => rfl⟩

theorem Reaches.alone {mode after : Mode} {a held : Text} {ls : List Lexeme}
    (there : Reaches mode a ls after held) : lexemesFrom mode a = ls ++ lexemesFrom after held := by
  have read := there.read []
  rwa [List.append_nil, List.append_nil] at read

/-- A reader that goes on in another mode comes to what is reached from there. -/
theorem Reaches.step {mode next after : Mode} {a held : Text} {ls : List Lexeme}
    (there : Reaches next a ls after held) (front : Text) (ms : List Lexeme)
    (taken : ∀ t, lexemesFrom mode (front ++ (a ++ t)) = ms ++ lexemesFrom next (a ++ t)) :
    Reaches mode (front ++ a) (ms ++ ls) after held where
  valid := there.valid
  holds := there.holds
  ending := there.ending.trans (List.suffix_append front a)
  read t := by rw [List.append_assoc, taken, there.read, List.append_assoc]

/-- Every beginning of a text leads somewhere. The cases are those of the reader on the beginning
alone, where the last character stands for itself. -/
theorem exists_reaches {mode : Mode} (valid : mode.Valid) (a : Text) :
    ∃ ls after held, Reaches mode a ls after held := by
  fun_induction lexemesFrom mode a with
  | case1 => exact ⟨_, _, _, .start valid (.nothing _)⟩
  | case2 seen => exact ⟨_, _, _, .start valid (.nothing _)⟩
  | case3 quote seen => exact ⟨_, _, _, .start valid (.nothing _)⟩
  | case4 rest ih =>
    obtain ⟨ls, after, held, there⟩ := ih trivial
    exact ⟨_, _, _, there.step ['/', '*'] [] fun t => by simp [lexemesFrom]⟩
  | case5 c rest notPair quote ih =>
    obtain ⟨ls, after, held, there⟩ := ih quote
    exact ⟨_, _, _, there.step [c] [] fun t => lexemesFrom_outside_quote quote (rest ++ t)⟩
  | case6 c rest notPair noQuote ih =>
    by_cases last : c = '/' ∧ rest = []
    · obtain ⟨rfl, rfl⟩ := last
      exact ⟨_, _, _, .start valid .slash⟩
    · obtain ⟨ls, after, held, there⟩ := ih trivial
      refine ⟨_, _, _, there.step [c] [.char c] fun t =>
        lexemesFrom_outside_cons ?_ (by simpa using noQuote)⟩
      rintro ⟨rfl, star⟩
      cases rest with
      | nil => exact last ⟨rfl, rfl⟩
      | cons d more => exact notPair more rfl (by rw [Option.some.inj star])
  | case7 seen rest ih =>
    obtain ⟨ls, after, held, there⟩ := ih trivial
    exact ⟨_, _, _, there.step ['*', '/'] [.comment seen.reverse] fun t => by simp [lexemesFrom]⟩
  | case8 seen c rest notEnd ih =>
    by_cases last : c = '*' ∧ rest = []
    · obtain ⟨rfl, rfl⟩ := last
      exact ⟨_, _, _, .start valid (.star seen)⟩
    · obtain ⟨ls, after, held, there⟩ := ih trivial
      refine ⟨_, _, _, there.step [c] [] fun t => lexemesFrom_inComment_cons ?_ seen⟩
      rintro ⟨rfl, slash⟩
      cases rest with
      | nil => exact last ⟨rfl, rfl⟩
      | cons d more => exact notEnd more rfl (by rw [Option.some.inj slash])
  | case9 quote seen c rest ih =>
    obtain ⟨ls, after, held, there⟩ := ih valid
    exact ⟨_, _, _, there.step ['\\', c] [] fun t => by simp [lexemesFrom]⟩
  | case10 seen quote rest notPair ih =>
    obtain ⟨ls, after, held, there⟩ := ih trivial
    exact ⟨_, _, _, there.step [quote] [.quoted quote seen.reverse] fun t =>
      lexemesFrom_inQuoted_end (valid.quote_ne rfl) seen (rest ++ t)⟩
  | case11 quote seen c rest notPair other ih =>
    by_cases backslash : c = '\\'
    · subst backslash
      cases rest with
      | nil => exact ⟨_, _, _, .start valid (.backslash quote seen)⟩
      | cons d more => exact absurd rfl (notPair d more rfl)
    · obtain ⟨ls, after, held, there⟩ := ih valid
      exact ⟨_, _, _, there.step [c] [] fun t => lexemesFrom_inQuoted_cons backslash other seen⟩

end StaticSite.Stylesheet
