import StaticSite.Json.Lexeme

/-! # Reading JSON

A JSON text is read lexeme by lexeme by a machine whose state is the stack of lists and tables that
are still open and what may come next. Keys keep their order; of a repeated key the last value
counts, at the first place.
-/

namespace StaticSite.Json

/-- A list or a table that is still open; a table knows the key whose value is being read. -/
inductive Frame
  | list (before : List Value)
  | table (fields : Fields) (name : String)

/-- What a reader expects next, with the frames that are open, innermost first. -/
inductive State
  /-- A value; an empty list may also end here. -/
  | value (first : Bool) (frames : List Frame)
  /-- A key of a table; an empty table may also end here. -/
  | key (first : Bool) (fields : Fields) (frames : List Frame)
  | colon (fields : Fields) (name : String) (frames : List Frame)
  /-- A comma or the end of the innermost frame. -/
  | listRest (before : List Value) (frames : List Frame)
  | tableRest (fields : Fields) (frames : List Frame)
  | done (value : Value)

namespace State

/-- The state after a complete value. -/
def settle (value : Value) : List Frame → State
  | [] => .done value
  | .list before :: frames => .listRest (value :: before) frames
  | .table fields name :: frames => .tableRest (Fields.put name value fields) frames

/-- What is wrong when a state meets a word it does not expect, or the end of the text. -/
def expected : State → Cause
  | .value .. => .valueExpected
  | .key .. => .propertyNameExpected
  | .colon .. => .colonExpected
  | .listRest .. | .tableRest .. => .commaExpected
  | .done _ => .extraData

/-- Reads one lexeme. -/
def step (state : State) (offset : Nat) (word : Lexeme) : Except Fault State :=
  match state, word with
  | .value _ frames, .tableStart => .ok (.key true [] frames)
  | .value _ frames, .listStart => .ok (.value true (.list [] :: frames))
  | .value true (.list [] :: frames), .listEnd => .ok (settle (.list []) frames)
  | .value _ frames, .string content => .ok (settle (.text (String.ofList content)) frames)
  | .value _ frames, .scalar v => .ok (settle v frames)
  | .value .., .badString fault => .error fault
  | .key true [] frames, .tableEnd => .ok (settle (.table []) frames)
  | .key _ fields frames, .string content => .ok (.colon fields (String.ofList content) frames)
  | .key .., .badString fault => .error fault
  | .colon fields name frames, .colon => .ok (.value false (.table fields name :: frames))
  | .listRest before frames, .comma => .ok (.value false (.list before :: frames))
  | .listRest before frames, .listEnd => .ok (settle (.list before.reverse) frames)
  | .tableRest fields frames, .comma => .ok (.key false fields frames)
  | .tableRest fields frames, .tableEnd => .ok (settle (.table fields) frames)
  | state, _ => .error ⟨state.expected, offset⟩

end State

/-- Reads lexemes from a state on; `length` is the offset of the end of the text. -/
def run (length : Nat) : State → List (Nat × Lexeme) → Except Fault Value
  | .done value, [] => .ok value
  | state, [] => .error ⟨state.expected, length⟩
  | state, (offset, word) :: rest => do run length (← state.step offset word) rest

/-- Reads a JSON text. -/
def read (t : Text) : Except Fault Value :=
  if t.head? = some (Char.ofNat 0xfeff) then .error ⟨.byteOrderMark, 0⟩
  else run t.length (.value false []) (lexemes t)

/-- The line of an offset, counted from one. -/
def lineAt (t : Text) (offset : Nat) : Nat := (t.take offset).count '\n' + 1

/-- The column of an offset in its line, counted from one. -/
def columnAt (t : Text) (offset : Nat) : Nat :=
  ((t.take offset).reverse.takeWhile (· != '\n')).length + 1

/-- The wording of a fault in a text: its cause and its place. -/
def Fault.message (fault : Fault) (t : Text) : Text :=
  fault.cause.message ++ ": line " ++ Text.ofNat (lineAt t fault.offset) ++ " column " ++
    Text.ofNat (columnAt t fault.offset) ++ " (char " ++ Text.ofNat fault.offset ++ ")"

end StaticSite.Json
