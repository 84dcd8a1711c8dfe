import StaticSite.Text.Blank

/-! # Paths

A path is a root, which a relative path has none of, and the names that lead on from it. Repeated
slashes and single dots are no part of a path. A path that starts with exactly two slashes keeps
both. A name ends in a suffix from its last point on, unless that point is its first or its last
character.
-/

namespace StaticSite

/-- A path. -/
structure Path where
  root : Text := []
  parts : List Text := []
  deriving DecidableEq, Repr

namespace Path

/-- The root that a text starts with. -/
def rootOf (t : Text) : Text :=
  match (t.takeWhile (· == '/')).length with
  | 0 => []
  | 2 => ['/', '/']
  | _ => ['/']

/-- The path that a text names. -/
def ofText (t : Text) : Path :=
  { root := rootOf t
    parts := (Text.splitAt '/' t).filter fun part => !part.isEmpty && part != ['.'] }

/-- The text of a path. -/
def text (p : Path) : Text :=
  match p.root, p.parts with
  | [], [] => ['.']
  | root, parts => root ++ Text.joinWith ['/'] parts

/-- Whether a path starts at a root. -/
def isAbsolute (p : Path) : Bool := !p.root.isEmpty

/-- The path that another one leads to from here; one that starts at a root leads there. -/
def join (p q : Path) : Path := if q.isAbsolute then q else { p with parts := p.parts ++ q.parts }

/-- The path that a text leads to from here. -/
def child (p : Path) (t : Text) : Path := p.join (ofText t)

/-- The last name of a path. -/
def name (p : Path) : Text := p.parts.getLast?.getD []

/-- The name before the last point and the name from there on. -/
def splitName (name : Text) : Text × Text :=
  let after := name.reverse.takeWhile (· != '.')
  let stem := name.take (name.length - after.length - 1)
  if after.length < name.length ∧ !after.isEmpty ∧ !stem.isEmpty then
    (stem, '.' :: after.reverse)
  else (name, [])

/-- The last name of a path without its suffix. -/
def stem (p : Path) : Text := (splitName p.name).1

/-- The suffix of the last name of a path. -/
def suffix (p : Path) : Text := (splitName p.name).2

/-- Follows names from a place: two dots lead up. -/
def follow (place : List Text) (parts : List Text) : List Text :=
  parts.foldl (fun here part => if part = ['.', '.'] then here.dropLast else here ++ [part]) place

/-- The path from the root that a path leads to from a directory, without any dots. -/
def resolve (directory p : Path) : Path :=
  { root := ['/'], parts := follow [] (directory.join p).parts }

/-- A name and its suffix make up the name. -/
theorem splitName_append (name : Text) : (splitName name).1 ++ (splitName name).2 = name := by
  simp only [splitName]
  split
  · next found =>
    obtain ⟨shorter, -, -⟩ := found
    have whole : name.reverse =
        name.reverse.takeWhile (· != '.') ++ name.reverse.dropWhile (· != '.') :=
      (List.takeWhile_append_dropWhile ..).symm
    generalize after : name.reverse.takeWhile (· != '.') = a at *
    generalize before : name.reverse.dropWhile (· != '.') = b at *
    have turned : name = b.reverse ++ a.reverse := by
      rw [← List.reverse_append, ← whole, List.reverse_reverse]
    cases b with
    | nil => simp_all
    | cons c rest =>
      have point : c = '.' := by
        have := List.head?_dropWhile_not (· != '.') name.reverse
        rw [before] at this
        simpa using this
      subst point
      have length : rest.length + (a.length + 1) - a.length - 1 = rest.reverse.length := by
        rw [List.length_reverse]
        omega
      rw [turned]
      simp [length]
  · simp

end Path

end StaticSite
