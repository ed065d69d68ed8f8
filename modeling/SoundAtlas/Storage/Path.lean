import SoundAtlas.Text.Line

/-!
Paths, in the form in which they are shown: without repeated slashes, `.` components and slashes at
the end. What `..` leads to depends on the folders, so it stays.
-/

namespace SoundAtlas

structure Path where
  /-- What stands in front: nothing, one slash, or exactly two. -/
  root : String
  /-- The components, none of them empty or `.`. -/
  parts : List String
deriving DecidableEq, Repr

namespace Path

/-- What stands in front of a path. Three slashes count as one. -/
def rootOf : List Char → String
  | '/' :: '/' :: '/' :: _ => "/"
  | '/' :: '/' :: _ => "//"
  | '/' :: _ => "/"
  | _ => ""

def ofString (s : String) : Path where
  root := rootOf s.toList
  parts := ((Text.split '/' s.toList).filter fun p => p ≠ [] ∧ p ≠ ['.']).map String.ofList

def text (p : Path) : String :=
  if p.root.isEmpty && p.parts.isEmpty then "." else p.root ++ "/".intercalate p.parts

def join (p q : Path) : Path :=
  if q.root.isEmpty then { p with parts := p.parts ++ q.parts } else q

def child (p : Path) (name : String) : Path :=
  p.join (ofString name)

/-- The place that a path leads to from a folder, if every `..` leads to the folder above. -/
def placeFrom (here : List String) (p : Path) : List String :=
  p.parts.foldl (fun place name => if name = ".." then place.dropLast else place ++ [name])
    (if p.root.isEmpty then here else [])

def parent (p : Path) : Path :=
  { p with parts := p.parts.dropLast }

def name (p : Path) : String :=
  p.parts.getLastD ""

end Path

end SoundAtlas
