import StaticSite.Report.Faults

/-! # Reading data from files

Text that is read from a file has newlines for all its line ends. Data is read from JSON.
-/

namespace StaticSite

/-- The text of the file at a path. -/
def Files.readText (files : Files) (path : Path) : Except Problem Text := do
  let content ← (files.read path).mapError .ofFileFault
  let t ← content.decode.mapError .ofDecodingFault
  pure (Text.withNewlines t)

/-- The data of the file at a path. -/
def Files.readJson (files : Files) (path : Path) : Except Problem Value := do
  let t ← files.readText path
  (Json.read t).mapError (.ofJsonFault t)

/-- The problem of a file that holds no JSON: it says where the first fault is. -/
def Tree.notJson (path : Path) (t : Text) (fault : Json.Fault) : Problem :=
  { kind := .treeLoad
    message := "Tree file is not valid JSON: " ++ path.text ++ ":" ++
      Text.ofNat (Json.lineAt t fault.offset) ++ ":" ++ Text.ofNat (Json.columnAt t fault.offset)
    cause := some (.ofJsonFault t fault) }

/-- Loads the tree that the file at a path holds. -/
def Tree.loadFile (files : Files) (path : Path) : Except Problem (List Component) :=
  match files.readText path with
  | .error p =>
      .error (if p.kind = .fileNotFound then
        { kind := .treeLoad, message := "Tree file not found: " ++ path.text, cause := some p }
      else p)
  | .ok t =>
      match Json.read t with
      | .error fault => .error (Tree.notJson path t fault)
      | .ok v => (Tree.load v).mapError .ofTreeFault

end StaticSite
