import StaticSite.Text.Digit
import StaticSite.Text.Quoted
import StaticSite.Value.Fields

/-! # Forms of command lines

A form says which switches and operands a command line may have. A word that starts with a dash
stands for the switch that it names, in full or by a start that no other switch has. A value follows
its switch as the next word, or within the same word. The first `--` ends the switches.
-/

namespace StaticSite.Command

/-- What a switch does. -/
inductive Effect
  /-- It shows the help of its form. -/
  | help
  /-- It shows a version. -/
  | version (version : String)
  /-- It turns something on. -/
  | turnOn
  /-- It takes a text, which the help calls by a name. -/
  | take (label : String)
  /-- It takes one of some texts. -/
  | choose (choices : List String)
  deriving DecidableEq, Repr

/-- Whether a switch takes a value. -/
def Effect.takesValue : Effect → Bool
  | .take _ | .choose _ => true
  | _ => false

/-- A switch of a command line. -/
structure Switch where
  names : List String
  effect : Effect
  help : String
  deriving DecidableEq, Repr

/-- The name that the value of a switch is kept under. -/
def Switch.key (s : Switch) : String := s.names.headD ""

/-- A fault of a switch. -/
def Switch.fault (s : Switch) (message : Text) : Text :=
  "argument " ++ Text.joinWith "/" (s.names.map String.toList) ++ ": " ++ message

/-- What a command line has besides its switches. -/
inductive Operand
  | none
  /-- One word. -/
  | one (name help : String)
  /-- A command, whose words are all that follow it. -/
  | command (commands : List (String × String))
  deriving DecidableEq, Repr

/-- The form of a command line. -/
structure Form where
  program : String
  description : String := ""
  switches : List Switch
  operand : Operand := .none
  deriving DecidableEq, Repr

/-- A switch that a word stands for: the name it stands for, and the value within the word. -/
structure Match where
  switch : Switch
  name : String
  value : Option Text := none
  deriving DecidableEq, Repr

/-- What a word of a command line is. -/
inductive Role
  | switch (m : Match)
  /-- A word like a switch that the form has none of. -/
  | unknown
  /-- The end of the switches. -/
  | separator
  | argument
  deriving DecidableEq, Repr

/-- A word with its role. -/
structure Word where
  text : Text
  role : Role
  deriving DecidableEq, Repr

/-- What a command line gives. -/
structure Reading where
  given : List (String × Text) := []
  operand : Option Text := none
  command : Option (String × List Text) := none
  /-- The words that the form has no use for. -/
  extras : List Text := []
  deriving DecidableEq, Repr

/-- Why the reading of a command line stops. -/
inductive Stop
  | help (form : Form)
  | version (version : String)
  | fault (form : Form) (message : Text)
  deriving DecidableEq, Repr

/-- The word that ends the switches. -/
def separator : Text := ['-', '-']

/-- The fault of a value that is none of the choices. -/
def notAmong (choices : List String) (value : Text) : Text :=
  "invalid choice: " ++ Text.quoted value ++ " (choose from " ++
    Text.joinWith ", " (choices.map fun (choice : String) => Text.quoted choice) ++ ")"

namespace Form

/-- The names of a form with their switches. -/
def named (form : Form) : List (String × Switch) :=
  form.switches.flatMap fun s => s.names.map (·, s)

/-- The switch with a name. -/
def switch? (form : Form) (name : Text) : Option Match :=
  (form.named.find? (·.1.toList == name)).map fun (name, s) => { switch := s, name }

/-! Roles of words. -/

/-- The switches whose names start with a word. After a single dash, the first letter is a name too,
and the rest its value. -/
def candidates (form : Form) (word : Text) : List Match :=
  if separator.isPrefixOf word then
    let (start, value) := match Text.cut? ['='] word with
      | some (start, value) => (start, some value)
      | none => (word, none)
    form.named.filterMap fun (name, s) =>
      if start.isPrefixOf name.toList then some ⟨s, name, value⟩ else none
  else
    form.named.filterMap fun (name, s) =>
      if name.toList = word.take 2 then some ⟨s, name, some (word.drop 2)⟩
      else if word.isPrefixOf name.toList then some ⟨s, name, none⟩
      else none

/-- Whether a word is a negative number, which a newline may follow. -/
def isNegativeNumber (word : Text) : Bool :=
  let areDigits (t : Text) : Bool := t.all fun c => (scriptDigit? c).isSome
  match if word.getLast? = some '\n' then word.dropLast else word with
  | '-' :: number =>
      let (whole, fraction) := Text.splitFirst '.' number
      if number.elem '.' then areDigits whole && areDigits fraction && !fraction.isEmpty
      else areDigits number && !number.isEmpty
  | _ => false

/-- The role of a word that starts with a dash and names no switch in full. -/
def dashedRole (form : Form) (word : Text) : Except Text Role :=
  match form.candidates word with
  | [m] => .ok (.switch m)
  | [] => .ok (if isNegativeNumber word || word.elem ' ' then .argument else .unknown)
  | ms =>
      .error ("ambiguous option: " ++ word ++ " could match " ++
        Text.joinWith ", " (ms.map (·.name.toList)))

/-- The role of a word. -/
def role (form : Form) (word : Text) : Except Text Role :=
  match word with
  | '-' :: _ :: _ =>
      match form.switch? word with
      | some m => .ok (.switch m)
      | none =>
          let assigned := (Text.cut? ['='] word).bind fun (name, value) =>
            (form.switch? name).map fun m => { m with value := some value }
          match assigned with
          | some m => .ok (.switch m)
          | none => form.dashedRole word
  | _ => .ok .argument

/-- The words of a command line with their roles. -/
def words (form : Form) : List Text → Except Text (List Word)
  | [] => .ok []
  | t :: rest =>
      if t = separator then .ok (⟨t, .separator⟩ :: rest.map (⟨·, .argument⟩))
      else
        match form.role t with
        | .error message => .error message
        | .ok role => (form.words rest).map fun more => ⟨t, role⟩ :: more

/-! Switches and their values. -/

/-- A switch with its value: the one within the word, or the next word if that is an argument. Also
says whether the next word is used up. -/
def takeValue (s : Switch) (inside next : Option Text) :
    Except Text (List (Switch × Text) × Bool) :=
  match s.effect.takesValue, inside, next with
  | false, none, _ => .ok ([(s, [])], false)
  | false, some t, _ => .error (s.fault ("ignored explicit argument " ++ Text.quoted t))
  | true, some t, _ => .ok ([(s, t)], false)
  | true, none, some t => .ok ([(s, t)], true)
  | true, none, none => .error (s.fault "expected one argument")

/-- The switches that the letters after a short switch stand for. The last one may have a value. -/
def takeLetters (form : Form) (next : Option Text) (s : Switch) :
    Text → Except Text (List (Switch × Text) × Bool)
  | [] => takeValue s none next
  | c :: rest =>
      if s.effect.takesValue then takeValue s (some (c :: rest)) next
      else
        match form.switch? ['-', c] with
        | none => .error (s.fault ("ignored explicit argument " ++ Text.quoted (c :: rest)))
        | some m =>
            (form.takeLetters next m.switch rest).map fun (more, used) => ((s, []) :: more, used)

/-- The switches that a word stands for, with their values. -/
def takeSwitch (form : Form) (m : Match) (next : Option Text) :
    Except Text (List (Switch × Text) × Bool) :=
  match m.value with
  | some (c :: rest) =>
      if separator.isPrefixOf m.name.toList then takeValue m.switch (some (c :: rest)) next
      else form.takeLetters next m.switch (c :: rest)
  | value => takeValue m.switch value next

/-- Notes a switch. Two dashes as a value count as none. -/
def note (form : Form) (r : Reading) (given : Switch × Text) : Except Stop Reading :=
  let (s, t) := given
  let value := if t = separator then [] else t
  let noted : Reading := { r with given := Fields.put s.key value r.given }
  match s.effect with
  | .help => .error (.help form)
  | .version v => .error (.version v)
  | .turnOn | .take _ => .ok noted
  | .choose choices =>
      if t = separator ∨ choices.any (·.toList == t) then .ok noted
      else .error (.fault form (s.fault (notAmong choices t)))

/-! Whole command lines. -/

/-- The argument that words start with. -/
def nextArgument : List Word → Option Text
  | ⟨t, .argument⟩ :: _ => some t
  | _ => none

/-- Notes a command, which comes with all words that follow it. -/
def noteCommand (form : Form) (commands : List (String × String)) (r : Reading) (name : Text)
    (rest : List Text) : Except Stop Reading :=
  let names := commands.map (·.1)
  match names.find? (·.toList == name) with
  | some found => .ok { r with command := some (found, rest) }
  | none => .error (.fault form ("argument command: " ++ notAmong names name))

/-- Reads words on. -/
def readWords (form : Form) : List Word → Reading → Except Stop Reading
  | [], r => .ok r
  | ⟨_, .switch m⟩ :: rest, r =>
      match form.takeSwitch m (nextArgument rest) with
      | .error message => .error (.fault form message)
      | .ok (given, used) =>
          match given.foldlM form.note r, used, rest with
          | .error stop, _, _ => .error stop
          | .ok noted, true, _ :: after => form.readWords after noted
          | .ok noted, _, rest => form.readWords rest noted
  | ⟨t, .unknown⟩ :: rest, r => form.readWords rest { r with extras := r.extras ++ [t] }
  | ⟨t, _⟩ :: rest, r =>
      match form.operand, r.operand, rest with
      | .command commands, _, _ =>
          if t = separator ∧ rest.isEmpty then .ok { r with extras := r.extras ++ [t] }
          else form.noteCommand commands r t (rest.map (·.text))
      | .one .., none, [] =>
          if t = separator then .ok { r with extras := r.extras ++ [t] }
          else .ok { r with operand := some t }
      | .one .., none, next :: after =>
          if t = separator then form.readWords after { r with operand := some next.text }
          else if next.role = .separator then form.readWords after { r with operand := some t }
          else form.readWords (next :: after) { r with operand := some t }
      | _, _, rest => form.readWords rest { r with extras := r.extras ++ [t] }

/-- Reads a command line. -/
def read (form : Form) (line : List Text) : Except Stop Reading :=
  match form.words line with
  | .error message => .error (.fault form message)
  | .ok words =>
      match form.readWords words {}, form.operand with
      | .ok r, .one name _ =>
          if r.operand.isSome then .ok r
          else .error (.fault form ("the following arguments are required: " ++ name))
      | outcome, _ => outcome

end Form

namespace Reading

/-- The value of a switch, if it is there and not empty. -/
def value? (r : Reading) (key : String) : Option Text :=
  (r.given.lookup key).filter (!·.isEmpty)

/-- Whether a switch is there. -/
def isOn (r : Reading) (key : String) : Bool := (r.given.lookup key).isSome

end Reading

end StaticSite.Command
