import StaticSite.Text.Blank

/-! # Lines

Two notions of a line: the pieces between newlines, which layout works on, and the lines that end
at any line boundary of Unicode, which indentation of foreign text works on. `dedent` takes the
indentation off that all lines share.
-/

namespace StaticSite.Text

/-- The pieces of a text between newlines. -/
def lines (t : Text) : List Text := splitAt '\n' t

/-- Puts newlines between lines. -/
def unlines (ls : List Text) : Text := joinWith ['\n'] ls

/-- The lines of a file: each line with a newline at its end, nothing for no lines. -/
def page (ls : List Text) : Text := if ls.isEmpty then [] else unlines ls ++ ['\n']

/-- The characters that end a line. -/
def isLineEnd (c : Char) : Bool :=
  let n := c.toNat
  (10 ≤ n && n ≤ 13) || (28 ≤ n && n ≤ 30) || n == 0x85 || n == 0x2028 || n == 0x2029

/-- Cuts a text after each line boundary; a carriage return and a newline after it are one. -/
def cutLines : Text → List Text
  | [] => []
  | '\r' :: '\n' :: rest => ['\r', '\n'] :: cutLines rest
  | c :: rest =>
      if isLineEnd c then [c] :: cutLines rest
      else
        match cutLines rest with
        | [] => [[c]]
        | first :: others => (c :: first) :: others

/-- Cutting a text into lines loses nothing. -/
theorem flatten_cutLines (t : Text) : (cutLines t).flatten = t := by
  fun_induction cutLines t <;> simp_all

/-- Writes an indentation before every line that is not blank. -/
def indent (unit t : Text) : Text :=
  ((cutLines t).map fun line => if isBlank line then line else unit ++ line).flatten

/-- Spaces and tabs make up the indentation of a line. -/
def isIndent (c : Char) : Bool := c == ' ' || c == '\t'

/-- The longest common beginning of two texts. -/
def commonStart : Text → Text → Text
  | a :: as, b :: bs => if a = b then a :: commonStart as bs else []
  | _, _ => []

/-- A line of nothing but spaces and tabs. -/
def isBareLine (line : Text) : Bool := line.all isIndent

/-- The indentation that all lines share, bare lines left out. -/
def margin : List Text → Option Text
  | [] => none
  | line :: rest =>
      if isBareLine line then margin rest
      else
        let own := line.takeWhile isIndent
        match margin rest with
        | none => some own
        | some other => some (commonStart own other)

/-- Takes the shared indentation off every line and empties the bare ones. -/
def dedent (ls : List Text) : List Text :=
  let width := ((margin ls).getD []).length
  ls.map fun line => if isBareLine line then [] else line.drop width

/-- Drops the lines at both ends that are blank. -/
def trimLines (ls : List Text) : List Text :=
  ((ls.dropWhile isBlank).reverse.dropWhile isBlank).reverse

end StaticSite.Text
