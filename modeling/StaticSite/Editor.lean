import StaticSite.Tree.Component
import StaticSite.Value.Basic

/-! # The editor's page code

The code for the whole page that is edited beside the tree. A change is taken as it is given, so
until it is checked the code may be any raw data.
-/

namespace StaticSite

/-- The page code under edit: its three pieces as raw data, null where there is none. -/
structure Editor where
  css : Value := .null
  javascript : Value := .null
  headHtml : Value := .null

namespace Editor

/-- The names of the pieces. -/
def pieceNames : List String := ["css", "javascript", "head_html"]

/-- The raw form of a piece that has been checked. -/
def rawPiece (piece : Option String) : Value := (piece.map Value.text).getD .null

/-- An editor of page code. -/
def ofPageCode (code : PageCode) : Editor :=
  ⟨rawPiece code.css, rawPiece code.javascript, rawPiece code.headHtml⟩

/-- A piece after a change, which null leaves alone. -/
def changed (changes : Fields) (name : String) (piece : Value) : Value :=
  match Fields.get? changes name with
  | none | some .null => piece
  | some v => v

/-- Changes the pieces that are named; the name of a piece that there is none of is an error. -/
def update (editor : Editor) (changes : Fields) : Except String Editor :=
  match changes.find? fun (name, _) => !pieceNames.contains name with
  | some (name, _) => .error name
  | none => .ok
      { css := changed changes "css" editor.css
        javascript := changed changes "javascript" editor.javascript
        headHtml := changed changes "head_html" editor.headHtml }

/-- What a change of a piece that there is none of says. -/
def unexpectedMessage (name : String) : Text :=
  "EditorState.update_global_code() got an unexpected keyword argument '" ++ name ++ "'"

end Editor

end StaticSite
