import StaticSite.Archive.Bytes
import StaticSite.Command.Reach
import StaticSite.Command.Run

/-! # The program

Takes a picture of the files that the command line is about, runs the command on it, writes down what
changed, and tells what the run told.
-/

namespace StaticSite.Command

/-- What stands at a path. -/
def probe (path : Text) : IO (Option Node) := do
  try
    let content ← IO.FS.readBinFile (String.ofList path)
    return some (.file (.bytes content.toList))
  catch
    | .noFileOrDirectory .. => return none
    | _ => return some .directory

/-- Adds to a picture what stands at a place and above it. -/
def look (files : Files) (place : Place) : IO Files := do
  let mut files := files
  for above in (List.range place.length).map fun n => place.take (n + 1) do
    match files.node? above with
    | some .directory => continue
    | some (.file _) => return files
    | none =>
        match ← probe (Path.text ⟨['/'], above⟩) with
        | none => return files
        | some node =>
            files := files.put above node
            unless node matches .directory do return files
  return files

/-- Adds to a picture what stands at paths from the top. -/
def lookAll (files : Files) (paths : List Path) : IO Files :=
  paths.foldlM (fun files path => look files (Path.follow [] path.parts)) files

/-- Takes a picture of the files that a command line is about. -/
def takePicture (line : List Text) : IO Files := do
  let here := (Path.ofText (toString (← IO.currentDir))).parts
  let files ← look { here } here
  let .ok locations := Locations.read line | return files
  let .ok (root, asked) := locations.resolve files | return files
  let files ← lookAll files (linePaths files line ++ configPaths root asked)
  lookAll files (settingPaths root (configData files root asked))

/-- The bytes of what a file holds. -/
def storedBytes : FileContent → ByteArray
  | .text t => (String.ofList t).toUTF8
  | .bytes bs => ⟨bs.toArray⟩
  | .archive entries => ⟨(Archive.bytes entries).toArray⟩

/-- Writes down what has changed. -/
def writeChanges (before after : Files) : IO Unit := do
  for (place, node) in after.nodes do
    unless before.node? place = some node do
      let path := String.ofList (Path.text ⟨['/'], place⟩)
      match node with
      | .directory => IO.FS.createDirAll path
      | .file content => IO.FS.writeBinFile path (storedBytes content)

end StaticSite.Command

open StaticSite

/-- Runs the program on a command line. -/
def main (line : List String) : IO UInt32 := do
  let line := line.map String.toList
  let files ← Command.takePicture line
  let environment : Command.Environment :=
    { time := Text.ofNat (← IO.monoMsNow)
      level := ← IO.getEnv "PAGECRAFT_LOG_LEVEL"
      verbose := ← IO.getEnv "PAGECRAFT_VERBOSE"
      debug := ← IO.getEnv "PAGECRAFT_DEBUG" }
  let run := Command.run environment files line
  Command.writeChanges files run.files
  IO.print (String.ofList run.output)
  IO.eprint (String.ofList run.complaint)
  match run.ending with
  | .ok status => return UInt32.ofNat status
  | .error p =>
      IO.eprintln (p.kind.label ++ ": " ++ String.ofList p.text)
      return 1
