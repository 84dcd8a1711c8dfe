import StaticSite.Text.Blank

/-! # Lexemes of a stylesheet

A stylesheet is read as comments, quoted strings and single characters. Comments and strings keep
their text, whatever it holds, so that later stages look for structure among the characters only.
A comment or a string that does not end takes the rest of the text and is a lexeme of its own.
-/

namespace StaticSite.Stylesheet

/-- A piece of a stylesheet. -/
inductive Lexeme
  /-- A comment with the text between its delimiters. -/
  | comment (body : Text)
  /-- A string with its quote and the text between the quotes. -/
  | quoted (quote : Char) (body : Text)
  | char (c : Char)
  /-- A comment without an end. -/
  | openComment (body : Text)
  /-- A string without an end. -/
  | openQuoted (quote : Char) (body : Text)
  deriving DecidableEq, Repr

namespace Lexeme

/-- The text of a lexeme. -/
def text : Lexeme → Text
  | .comment body => "/*" ++ body ++ "*/"
  | .quoted quote body => quote :: body ++ [quote]
  | .char c => [c]
  | .openComment body => "/*" ++ body
  | .openQuoted quote body => quote :: body

/-- Whether a lexeme is a blank character. -/
def isBlank : Lexeme → Bool
  | .char c => StaticSite.isBlank c
  | _ => false

end Lexeme

/-- Whether a character opens a string. -/
def isQuote (c : Char) : Bool := c == '"' || c == '\''

/-- Where a reader is: among characters, in a comment or in a string, with the text of the comment
or the string so far, last character first. -/
inductive Mode
  | outside
  | inComment (seen : Text)
  | inQuoted (quote : Char) (seen : Text)

/-- The lexemes of the rest of a text. A backslash in a string keeps the next character from ending
it. -/
@[grind =] def lexemesFrom : Mode → Text → List Lexeme
  | .outside, [] => []
  | .inComment seen, [] => [.openComment seen.reverse]
  | .inQuoted quote seen, [] => [.openQuoted quote seen.reverse]
  | .outside, '/' :: '*' :: rest => lexemesFrom (.inComment []) rest
  | .outside, c :: rest =>
      if isQuote c then lexemesFrom (.inQuoted c []) rest else .char c :: lexemesFrom .outside rest
  | .inComment seen, '*' :: '/' :: rest => .comment seen.reverse :: lexemesFrom .outside rest
  | .inComment seen, c :: rest => lexemesFrom (.inComment (c :: seen)) rest
  | .inQuoted quote seen, '\\' :: c :: rest => lexemesFrom (.inQuoted quote (c :: '\\' :: seen)) rest
  | .inQuoted quote seen, c :: rest =>
      if c = quote then .quoted quote seen.reverse :: lexemesFrom .outside rest
      else lexemesFrom (.inQuoted quote (c :: seen)) rest

/-- The lexemes of a text. -/
def lexemes (t : Text) : List Lexeme := lexemesFrom .outside t

/-- The text that a reader has taken and not yet given back. -/
def Mode.pending : Mode → Text
  | .outside => []
  | .inComment seen => "/*" ++ seen.reverse
  | .inQuoted quote seen => quote :: seen.reverse

theorem flatMap_text_lexemesFrom (mode : Mode) (t : Text) :
    (lexemesFrom mode t).flatMap Lexeme.text = mode.pending ++ t := by
  fun_induction lexemesFrom mode t <;> simp_all [Mode.pending, Lexeme.text]

/-- Reading lexemes loses nothing. -/
theorem flatMap_text_lexemes (t : Text) : (lexemes t).flatMap Lexeme.text = t :=
  flatMap_text_lexemesFrom .outside t

end StaticSite.Stylesheet
