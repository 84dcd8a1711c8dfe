import StaticSite.Stylesheet.Lexeme

/-! # Selector lists

A selector list is cut at the commas that stand outside strings, comments and brackets.
-/

namespace StaticSite.Stylesheet

/-- The parts of a selector list: the part at its start, whose text so far is given last character
first, and the parts after it. `depth` counts the brackets that are open. -/
def partsFrom (seen : Text) (depth : Nat) : List Lexeme → List Text
  | [] => [seen.reverse]
  | .char c :: rest =>
      if c = ',' ∧ depth = 0 then seen.reverse :: partsFrom [] 0 rest
      else if c = '(' ∨ c = '[' then partsFrom (c :: seen) (depth + 1) rest
      else if c = ')' ∨ c = ']' then partsFrom (c :: seen) (depth - 1) rest
      else partsFrom (c :: seen) depth rest
  | l :: rest => partsFrom (l.text.reverse ++ seen) depth rest

/-- The selectors of a list, trimmed. -/
def selectors (t : Text) : List Text := (partsFrom [] 0 (lexemes t)).map Text.trim

theorem partsFrom_ne_nil (seen : Text) (depth : Nat) (ls : List Lexeme) :
    partsFrom seen depth ls ≠ [] := by
  fun_induction partsFrom seen depth ls <;> simp_all

/-- Joining the parts with commas gives the text back. -/
theorem joinWith_partsFrom (seen : Text) (depth : Nat) (ls : List Lexeme) :
    Text.joinWith [','] (partsFrom seen depth ls) = seen.reverse ++ ls.flatMap Lexeme.text := by
  fun_induction partsFrom seen depth ls with
  | case1 => simp [Text.joinWith]
  | case2 seen depth c rest comma ih =>
    obtain ⟨rfl, rfl⟩ := comma
    cases parts : partsFrom [] 0 rest with
    | nil => exact absurd parts (partsFrom_ne_nil [] 0 rest)
    | cons first others =>
      rw [parts] at ih
      simp_all [Text.joinWith, Lexeme.text]
  | case3 => simp_all [Lexeme.text]
  | case4 => simp_all [Lexeme.text]
  | case5 => simp_all [Lexeme.text]
  | case6 => simp_all

end StaticSite.Stylesheet
