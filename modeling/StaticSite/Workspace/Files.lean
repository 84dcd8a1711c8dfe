import StaticSite.Archive.Entry
import StaticSite.Text.Quoted
import StaticSite.Text.Utf8
import StaticSite.Value.Fields
import StaticSite.Workspace.Path

/-! # Files

The files and directories that commands read and write. A place is the list of names that lead to it
from the top. A path is followed name by name, and every name on the way has to be a directory. What
goes wrong is a fault with the path that was asked for; changes that were made before it stay.
-/

namespace StaticSite

/-- What a file holds. -/
inductive FileContent
  | text (t : Text)
  | bytes (bs : List UInt8)
  | archive (entries : List Archive.Entry)
  deriving DecidableEq, Repr

/-- What can stand at a place. -/
inductive Node
  | directory
  | file (content : FileContent)
  deriving DecidableEq, Repr

/-- Where something can stand: the names from the top. -/
abbrev Place := List Text

/-- Why a path cannot be used. -/
inductive FileCause
  | notFound
  | alreadyExists
  | notDirectory
  | isDirectory
  | nameTooLong
  /-- A path with a NUL, which is no path at all. -/
  | nul
  deriving DecidableEq, Repr

/-- A cause with the path it concerns. -/
structure FileFault where
  cause : FileCause
  path : Path
  deriving DecidableEq, Repr

namespace FileCause

/-- The number and the wording of a cause. -/
def label : FileCause → String
  | .notFound => "[Errno 2] No such file or directory"
  | .alreadyExists => "[Errno 17] File exists"
  | .notDirectory => "[Errno 20] Not a directory"
  | .isDirectory => "[Errno 21] Is a directory"
  | .nameTooLong => "[Errno 36] File name too long"
  | .nul => "embedded null byte"

/-- Whether a cause only says that there is nothing at a path. -/
def saysAbsent : FileCause → Bool
  | .notFound | .notDirectory | .nul => true
  | _ => false

end FileCause

/-- The wording of a fault. -/
def FileFault.message (fault : FileFault) : Text :=
  match fault.cause with
  | .nul => fault.cause.label
  | cause => cause.label ++ ": " ++ Text.quoted fault.path.text

/-- The files and directories, and the directory that relative paths start from. -/
structure Files where
  here : Place := []
  nodes : List (Place × Node) := []
  deriving Repr

namespace Files

/-- The longest name that a directory takes, in bytes. -/
def nameLimit : Nat := 255

/-- What stands at a place; the top is a directory. -/
def node? (files : Files) (place : Place) : Option Node :=
  if place.isEmpty then some .directory else files.nodes.lookup place

/-- Puts something at a place. -/
def put (files : Files) (place : Place) (node : Node) : Files :=
  { files with nodes := Fields.put place node files.nodes }

/-- Puts directories at all places above a place that has nothing. -/
def putAbove (files : Files) (place : Place) : Files :=
  ((List.range place.length).map place.take).foldl
    (fun files above => if (files.node? above).isSome then files else files.put above .directory)
    files

/-- Puts something at a place, below directories. -/
def putBelow (files : Files) (place : Place) (node : Node) : Files :=
  (files.putAbove place).put place node

/-- Follows names from a place. Each place on the way has to be a directory, and the last one need
not have anything. -/
def follow (files : Files) (place : Place) : List Text → Except FileCause Place
  | [] => .ok place
  | part :: rest =>
      match files.node? place with
      | none => .error .notFound
      | some (.file _) => .error .notDirectory
      | some .directory =>
          if part = ['.', '.'] then follow files place.dropLast rest
          else if nameLimit < Utf8.size part then .error .nameTooLong
          else follow files (place ++ [part]) rest

/-- The place that a path leads to. -/
def place (files : Files) (path : Path) : Except FileCause Place :=
  if path.parts.any (·.elem (Char.ofNat 0)) then .error .nul
  else files.follow (if path.isAbsolute then [] else files.here) path.parts

/-- The path from the top that a path leads to, whatever stands there. -/
def resolve (files : Files) (path : Path) : Except FileFault Path :=
  if path.parts.any (·.elem (Char.ofNat 0)) then .error ⟨.nul, path⟩
  else .ok (Path.resolve ⟨['/'], files.here⟩ path)

/-- What stands at a path. -/
def find (files : Files) (path : Path) : Except FileFault Node :=
  match files.place path with
  | .error cause => .error ⟨cause, path⟩
  | .ok place =>
      match files.node? place with
      | none => .error ⟨.notFound, path⟩
      | some node => .ok node

/-- Whether something of a kind stands at a path. -/
def holds (files : Files) (path : Path) (kind : Node → Bool) : Except FileFault Bool :=
  match files.find path with
  | .ok node => .ok (kind node)
  | .error fault => if fault.cause.saysAbsent then .ok false else .error fault

/-- Whether anything stands at a path. -/
def hasAny (files : Files) (path : Path) : Except FileFault Bool := files.holds path fun _ => true

/-- Whether a file stands at a path. -/
def hasFile (files : Files) (path : Path) : Except FileFault Bool :=
  files.holds path fun node => node matches .file _

/-- What the file at a path holds. -/
def read (files : Files) (path : Path) : Except FileFault FileContent :=
  match files.find path with
  | .error fault => .error fault
  | .ok .directory => .error ⟨.isDirectory, path⟩
  | .ok (.file content) => .ok content

/-- Writes the file at a path. -/
def write (files : Files) (path : Path) (content : FileContent) : Except FileFault Files :=
  match files.place path with
  | .error cause => .error ⟨cause, path⟩
  | .ok place =>
      match files.node? place with
      | some .directory => .error ⟨.isDirectory, path⟩
      | _ => .ok (files.put place (.file content))

/-- Makes a directory at a path that has nothing. -/
def makeDirectory (files : Files) (path : Path) : Except FileFault Files :=
  match files.place path with
  | .error cause => .error ⟨cause, path⟩
  | .ok place =>
      match files.node? place with
      | some _ => .error ⟨.alreadyExists, path⟩
      | none => .ok (files.put place .directory)

/-- Makes a directory at a path unless it has one. -/
def requireDirectory (files : Files) (path : Path) : Except FileFault Files :=
  match files.makeDirectory path with
  | .ok after => .ok after
  | .error fault =>
      match fault.cause, files.find path with
      | .notFound, _ => .error fault
      | _, .ok .directory => .ok files
      | _, _ => .error fault

/-- Makes the directories that lead to a path, whose names are given last one first. -/
def requireAll (files : Files) (root : Text) : List Text → Files × Option FileFault
  | [] =>
      match files.requireDirectory ⟨root, []⟩ with
      | .ok after => (after, none)
      | .error fault => (files, some fault)
  | part :: above =>
      let path : Path := ⟨root, (part :: above).reverse⟩
      match files.requireDirectory path with
      | .ok after => (after, none)
      | .error fault =>
          if fault.cause ≠ .notFound then (files, some fault)
          else
            match files.requireAll root above with
            | (between, some fault) => (between, some fault)
            | (between, none) =>
                match between.requireDirectory path with
                | .ok after => (after, none)
                | .error fault => (between, some fault)

/-- Makes the directories that lead to a path, and the one at its end. -/
def makeDirectories (files : Files) (path : Path) : Files × Option FileFault :=
  files.requireAll path.root path.parts.reverse

/-- Writes files one after the other until one cannot be written. -/
def writeAll (files : Files) : List (Path × FileContent) → Files × Option FileFault
  | [] => (files, none)
  | (path, content) :: rest =>
      match files.write path content with
      | .error fault => (files, some fault)
      | .ok after => after.writeAll rest

/-- Writes files below a directory, which is made if there is none. -/
def writeBelow (files : Files) (directory : Path) (contents : List (Path × FileContent)) :
    Files × Option FileFault :=
  match files.makeDirectories directory with
  | (after, some fault) => (after, some fault)
  | (after, none) => after.writeAll contents

end Files

/-- Reads line ends: a carriage return, alone or before a newline, is a newline. -/
def Text.withNewlines : Text → Text
  | [] => []
  | '\r' :: '\n' :: rest => '\n' :: withNewlines rest
  | c :: rest => (if c = '\r' then '\n' else c) :: withNewlines rest

/-- The text of what a file holds, as it is stored; the compressed bytes of an archive are none. -/
def FileContent.decode : FileContent → Except Utf8.Fault Text
  | .text t => .ok t
  | .bytes bs => Utf8.decode bs
  | .archive _ => .error ⟨.badStart 0xff, 0, 1⟩

end StaticSite
