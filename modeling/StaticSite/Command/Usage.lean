import StaticSite.Command.Form
import StaticSite.Text.Lines

/-! # Usage and help

The text that tells the form of a command line, for a terminal of eighty columns. Usage is the short
one: it names the switches and operands. Help also says what they are for, in two columns.
-/

namespace StaticSite.Command

/-- The columns that text may take. -/
def columns : Nat := 78

/-- The column that explanations start in at most. -/
def helpColumn : Nat := 24

/-- A number of spaces. -/
def blanks (n : Nat) : Text := List.replicate n ' '

/-- Puts parts on lines of at most a width, with spaces between. The line that is being filled comes
first. -/
def fillFrom (width : Nat) (line : Text) : List Text → List Text
  | [] => [line]
  | part :: rest =>
      if line.length + 1 + part.length ≤ width then fillFrom width (line ++ ' ' :: part) rest
      else line :: fillFrom width part rest

/-- Puts parts on lines of at most a width, with spaces between. -/
def fill (width : Nat) : List Text → List Text
  | [] => []
  | part :: rest => fillFrom width part rest

/-- The texts of a choice. -/
def choiceLabel (choices : List String) : Text :=
  '\x7b' :: Text.joinWith "," (choices.map String.toList) ++ ['\x7d']

namespace Switch

/-- A name of a switch with its value. -/
def withLabel (s : Switch) (name : String) : Text :=
  match s.effect with
  | .take label => name ++ ' ' :: label.toList
  | .choose choices => name ++ ' ' :: choiceLabel choices
  | _ => name

/-- A switch in the usage. -/
def usage (s : Switch) : Text := '[' :: s.withLabel s.key ++ [']']

/-- A switch in the help. -/
def heading (s : Switch) : Text := Text.joinWith ", " (s.names.map s.withLabel)

end Switch

/-- A row of the help: its indentation, a heading, and an explanation. -/
structure Row where
  indent : Nat := 2
  heading : Text
  help : String

/-- The columns that a heading ends in. -/
def Row.width (row : Row) : Nat := row.indent + row.heading.length

/-- A row as lines, with explanations from a column on. -/
def Row.lines (column : Nat) (row : Row) : List Text :=
  let explained := fill (columns - column) (Text.splitAt ' ' row.help)
  let start := blanks row.indent ++ row.heading
  if row.width + 2 ≤ column then
    match explained with
    | [] => [start]
    | first :: more =>
        (start ++ blanks (column - row.width) ++ first) :: more.map (blanks column ++ ·)
  else start :: explained.map (blanks column ++ ·)

namespace Form

/-- The operand in the usage. -/
def operandUsage (form : Form) : List Text :=
  match form.operand with
  | .none => []
  | .one name _ => [name]
  | .command commands => [choiceLabel (commands.map (·.1)), "..."]

/-- The usage of a form. -/
def usage (form : Form) : Text :=
  let start : Text := "usage: " ++ form.program ++ " "
  let switches := form.switches.map Switch.usage
  let whole := start ++ Text.joinWith " " (switches ++ form.operandUsage)
  let room := columns - start.length
  let ls := fill room switches ++ fill room form.operandUsage
  (if whole.length ≤ columns then whole
  else start ++ Text.joinWith ('\n' :: blanks start.length) ls) ++ ['\n']

/-- The operands in the help. -/
def operandRows (form : Form) : List Row :=
  match form.operand with
  | .none => []
  | .one name help => [{ heading := name, help }]
  | .command commands =>
      { heading := choiceLabel (commands.map (·.1)), help := "Available commands" } ::
        commands.map fun (name, help) => { indent := 4, heading := name, help }

/-- The switches in the help. -/
def switchRows (form : Form) : List Row :=
  form.switches.map fun s => { heading := s.heading, help := s.help }

/-- A section of the help. -/
def sectionText (title : String) (column : Nat) (rows : List Row) : Text :=
  if rows.isEmpty then []
  else ['\n'] ++ Text.page ((title ++ ":") :: rows.flatMap (Row.lines column))

/-- The help of a form. -/
def help (form : Form) : Text :=
  let widths := (form.operandRows ++ form.switchRows).map Row.width
  let column := min (widths.foldl max 0 + 2) helpColumn
  let description : Text :=
    if form.description.isEmpty then [] else "\n" ++ form.description ++ "\n"
  form.usage ++ description ++ sectionText "positional arguments" column form.operandRows ++
    sectionText "options" column form.switchRows

end Form

namespace Stop

/-- What is told when the reading of a command line stops. -/
def output : Stop → Text
  | .help form => form.help
  | .version v => v ++ "\n"
  | .fault .. => []

/-- What is complained about when the reading of a command line stops. -/
def complaint : Stop → Text
  | .fault form message => form.usage ++ form.program ++ ": error: " ++ message ++ "\n"
  | _ => []

/-- The status that the program ends with when the reading of a command line stops. -/
def status : Stop → Nat
  | .fault .. => 2
  | _ => 0

end Stop

end StaticSite.Command
