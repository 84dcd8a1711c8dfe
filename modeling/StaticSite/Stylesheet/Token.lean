import StaticSite.Stylesheet.Lexeme

/-! # Tokens of a stylesheet

The statements of a stylesheet: blocks that open with a prelude and close, declarations, and
comments between them. The text of a prelude or a declaration is its lexemes with each run of
blanks outside comments and strings written as one space.
-/

namespace StaticSite.Stylesheet

/-- Why a text is no stylesheet. -/
inductive Fault
  | unterminatedComment
  | unterminatedString
  | missingSelector
  | contentAfterLastRule
  | unbalancedBrace
  | unclosedBlock
  deriving DecidableEq, Repr

/-- The wording of a fault. -/
def Fault.message : Fault → String
  | .unterminatedComment => "Unterminated comment"
  | .unterminatedString => "Unterminated string"
  | .missingSelector => "Block without a selector"
  | .contentAfterLastRule => "Unexpected content after the last rule"
  | .unbalancedBrace => "Unbalanced closing brace"
  | .unclosedBlock => "Unclosed block"

/-- A statement or a part of one. -/
inductive Token
  /-- A block opens. -/
  | opening (prelude : Text)
  | closing
  | declaration (text : Text)
  /-- A comment between statements, with its delimiters. -/
  | comment (text : Text)
  deriving DecidableEq, Repr

/-- Lexemes as text, each run of blank characters as one space; `after` tells that a blank went
before. -/
def phraseFrom (after : Bool) : List Lexeme → Text
  | [] => []
  | .char c :: rest =>
      if isBlank c then (if after then [] else [' ']) ++ phraseFrom true rest
      else c :: phraseFrom false rest
  | l :: rest => l.text ++ phraseFrom false rest

/-- The text of lexemes that make up one prelude or declaration. -/
def phrase (ls : List Lexeme) : Text := Text.trim (phraseFrom false ls)

/-- What a reader of tokens gives: the tokens, and the fault that it stopped at, if any. -/
structure Tokens where
  items : List Token
  fault : Option Fault
  deriving DecidableEq, Repr

namespace Tokens

/-- A stop at a fault. -/
def stop (fault : Fault) : Tokens := ⟨[], some fault⟩

/-- Puts a token in front. -/
def cons (token : Token) (rest : Tokens) : Tokens := { rest with items := token :: rest.items }

/-- Puts a declaration in front unless its lexemes are all blank. -/
def consDeclaration (pending : List Lexeme) (rest : Tokens) : Tokens :=
  if pending.all Lexeme.isBlank then rest else rest.cons (.declaration (phrase pending.reverse))

end Tokens

/-- The tokens of lexemes. The lexemes of the statement so far come last one first in `pending`; a
semicolon ends a statement while no parenthesis is open, and `parens` counts the open ones. -/
def tokensFrom (pending : List Lexeme) (parens : Nat) : List Lexeme → Tokens
  | [] => if pending.all Lexeme.isBlank then ⟨[], none⟩ else .stop .contentAfterLastRule
  | .openComment _ :: _ => .stop .unterminatedComment
  | .openQuoted _ _ :: _ => .stop .unterminatedString
  | .comment body :: rest =>
      if pending.all Lexeme.isBlank then
        (tokensFrom [] parens rest).cons (.comment (Lexeme.comment body).text)
      else tokensFrom (.comment body :: pending) parens rest
  | .quoted quote body :: rest => tokensFrom (.quoted quote body :: pending) parens rest
  | .char c :: rest =>
      if c = '\x7b' then
        let start := phrase pending.reverse
        if start.isEmpty then .stop .missingSelector
        else (tokensFrom [] parens rest).cons (.opening start)
      else if c = '\x7d' then
        ((tokensFrom [] parens rest).cons .closing).consDeclaration pending
      else if c = ';' ∧ parens = 0 then (tokensFrom [] parens rest).consDeclaration pending
      else if c = '(' then tokensFrom (.char c :: pending) (parens + 1) rest
      else if c = ')' then tokensFrom (.char c :: pending) (parens - 1) rest
      else tokensFrom (.char c :: pending) parens rest

/-- The tokens of a text. -/
def tokens (t : Text) : Tokens := tokensFrom [] 0 (lexemes t)

end StaticSite.Stylesheet
