import StaticSite.Text.Blank

/-! # Escaped texts

Text that becomes part of markup has its special characters written as references. Three dialects
are in use: for attributes that the generator writes, for fields of the page template, and for
content that the layout writes back. `quotedAttribute` also chooses the quote.
-/

namespace StaticSite.Text

/-- Replaces each character by a text. -/
def replaceEach (replacement : Char → Option String) (t : Text) : Text :=
  t.flatMap fun c => match replacement c with
    | some s => s.toList
    | none => [c]

/-- The references for the characters that mark up text. -/
def contentReference : Char → Option String
  | '&' => some "&amp;"
  | '<' => some "&lt;"
  | '>' => some "&gt;"
  | _ => none

/-- The references that the generator writes in attributes, quotes among them. -/
def attributeReference : Char → Option String
  | '"' => some "&quot;"
  | '\'' => some "&#x27;"
  | c => contentReference c

/-- The references that the page template writes in its fields. -/
def fieldReference : Char → Option String
  | '"' => some "&#34;"
  | '\'' => some "&#39;"
  | c => contentReference c

/-- Escapes a text for content. -/
def escapeContent (t : Text) : Text := replaceEach contentReference t

/-- Escapes a text for a double-quoted attribute. -/
def escapeAttribute (t : Text) : Text := replaceEach attributeReference t

/-- Escapes a text for a field of the page template. -/
def escapeField (t : Text) : Text := replaceEach fieldReference t

/-- Escapes an attribute value and encloses it: in double quotes, in single ones when it holds a
double quote and no single one, and with the double quotes as references when it holds both. -/
def quotedAttribute (t : Text) : Text :=
  let escaped := escapeContent t
  if !escaped.elem '"' then '"' :: escaped ++ ['"']
  else if !escaped.elem '\'' then '\'' :: escaped ++ ['\'']
  else
    '"' :: replaceEach (fun c => if c = '"' then some "&quot;" else none) escaped ++ ['"']

theorem replaceEach_append (replacement : Char → Option String) (s t : Text) :
    replaceEach replacement (s ++ t) = replaceEach replacement s ++ replaceEach replacement t := by
  simp [replaceEach]

end StaticSite.Text
