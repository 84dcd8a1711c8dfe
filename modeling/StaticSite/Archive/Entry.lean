import StaticSite.Archive.Scaffold

/-! # Archives

An archive is the list of its entries. Every entry is dated and marked alike, so that the same files
always give the same archive.
-/

namespace StaticSite.Archive

/-- An entry of an archive. -/
structure Entry where
  path : Text
  content : Text
  deriving DecidableEq, Repr

/-- The moment that every entry is dated at: year, month, day, hour, minute and second. -/
def entryDate : List Nat := [1980, 1, 1, 0, 0, 0]

/-- The permissions of every entry: its owner may write it and everyone may read it. -/
def entryMode : Nat := 0o644

/-- The number of bytes that the text of an entry takes before it is compressed. -/
def Entry.size (e : Entry) : Nat := e.content.foldl (fun size c => size + c.utf8Size) 0

/-- The entry of a file; a path ends where a NUL would stand in it. -/
def Entry.ofFile (f : File) : Entry := ⟨f.path.takeWhile (· != Char.ofNat 0), f.content⟩

/-- The archive of some files. -/
def ofFiles (files : List File) : List Entry := files.map Entry.ofFile

end StaticSite.Archive
