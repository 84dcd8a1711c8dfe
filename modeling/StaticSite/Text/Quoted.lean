import StaticSite.Text.Digit
import StaticSite.Text.LowerCase
import StaticSite.Text.PrintableTable

/-! # Quoted texts

The quoted form of a text in messages and in printed lists and tables: single quotes unless the
text has a single quote and no double one, a backslash before the quote and itself, and escapes for
characters without a visible form.
-/

namespace StaticSite.Text.Quoted

/-- The quote that encloses a text. -/
def quoteFor (t : Text) : Char :=
  if t.elem '\'' && !t.elem '"' then '"' else '\''

/-- Writes one character of a text enclosed in a quote. -/
def encodeChar (quote c : Char) : Text :=
  if c = quote ∨ c = '\\' then ['\\', c]
  else if c = '\t' then ['\\', 't']
  else if c = '\n' then ['\\', 'n']
  else if c = '\r' then ['\\', 'r']
  else if 32 ≤ c.toNat ∧ c.toNat < 127 then [c]
  else if !inRanges unprintableRanges c.toNat then [c]
  else if c.toNat < 0x100 then '\\' :: 'x' :: hexOfWidth 2 c.toNat
  else if c.toNat < 0x10000 then '\\' :: 'u' :: hexOfWidth 4 c.toNat
  else '\\' :: 'U' :: hexOfWidth 8 c.toNat

end Quoted

/-- The quoted form of a text. -/
def quoted (t : Text) : Text :=
  let quote := Quoted.quoteFor t
  quote :: t.flatMap (Quoted.encodeChar quote) ++ [quote]

end StaticSite.Text
