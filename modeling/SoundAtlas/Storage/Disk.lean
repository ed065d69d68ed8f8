import SoundAtlas.Storage.Path

/-!
A disk: folders of named files and folders, and one folder that paths start from. Every operation
fails in the way the disk would refuse it, and then changes nothing, but for the removal of a
folder, which may end half way.
-/

namespace SoundAtlas

inductive Node where
  | file (content : ByteArray)
  | folder (entries : List (String × Node))

namespace Node

/-- The entries with one name set, in place of an entry of that name or at the end. -/
def setEntry (name : String) (node : Node) : List (String × Node) → List (String × Node)
  | [] => [(name, node)]
  | e :: es => if e.1 = name then (name, node) :: es else e :: setEntry name node es

def dropEntry (name : String) (entries : List (String × Node)) : List (String × Node) :=
  entries.filter fun e => e.1 ≠ name

def entry? (name : String) (entries : List (String × Node)) : Option Node :=
  (entries.find? fun e => e.1 = name).map (·.2)

def isFolder : Node → Bool
  | .file _ => false
  | .folder _ => true

def follow : List String → Node → Option Node
  | [], n => some n
  | _ :: _, .file _ => none
  | name :: names, .folder entries =>
    match entry? name entries with
    | none => none
    | some n => n.follow names

/-- The node with its entries at a place changed; a place that is no folder stays as it is. -/
def change (f : List (String × Node) → List (String × Node)) : List String → Node → Node
  | _, .file c => .file c
  | [], .folder entries => .folder (f entries)
  | name :: names, .folder entries =>
    match entry? name entries with
    | none => .folder entries
    | some n => .folder (setEntry name (n.change f names) entries)

end Node

structure Disk where
  root : Node
  /-- The folder that paths start from. -/
  here : List String

namespace Disk

inductive Error where
  | notFound
  | notFolder
  | isFolder
  | exists
  | nameTooLong
  /-- A name with a character that no name can have. -/
  | badName
  /-- The folder that paths start from cannot be removed by its short name. -/
  | notRemovable
deriving DecidableEq, Repr

def longestName : Nat := 255

def longestPath : Nat := 4095

def empty : Disk :=
  { root := .folder [("work", .folder [])], here := ["work"] }

def at? (d : Disk) (place : List String) : Option Node :=
  d.root.follow place

/-- The place that names lead to from a place. All but the last of them have to be folders. -/
def walk (d : Disk) : List String → List String → Except Error (List String)
  | place, [] => .ok place
  | place, name :: names =>
    match d.at? place with
    | none => .error .notFound
    | some (.file _) => .error .notFolder
    | some (.folder _) =>
      if name = ".." then d.walk place.dropLast names
      else if longestName < name.utf8ByteSize then .error .nameTooLong
      else d.walk (place ++ [name]) names

/-- The place of a path; something is there, or it is a name in a folder that is there. -/
def place (d : Disk) (p : Path) : Except Error (List String) :=
  if p.text.toList.contains '\x00' then .error .badName
  else if longestPath < p.text.utf8ByteSize then .error .nameTooLong
  else d.walk (if p.root.isEmpty then d.here else []) p.parts

def node (d : Disk) (p : Path) : Except Error Node := do
  match d.at? (← d.place p) with
  | some n => return n
  | none => throw .notFound

/-- Whether anything was found. A path that can lead nowhere has nothing; one that is too long is
refused. -/
def present (found : Except Error Node) : Except Error Bool :=
  match found with
  | .ok _ => .ok true
  | .error .nameTooLong => .error .nameTooLong
  | .error _ => .ok false

def content (found : Except Error Node) : Except Error ByteArray :=
  match found with
  | .ok (.file c) => .ok c
  | .ok (.folder _) => .error .isFolder
  | .error e => .error e

/-- The size of what was found; a folder has the size of a block. -/
def size (found : Except Error Node) : Except Error Nat :=
  match found with
  | .ok (.file c) => .ok c.size
  | .ok (.folder _) => .ok 4096
  | .error e => .error e

def hasNode (d : Disk) (p : Path) : Except Error Bool :=
  present (d.node p)

def read (d : Disk) (p : Path) : Except Error ByteArray :=
  content (d.node p)

def hasFolder (d : Disk) (p : Path) : Bool :=
  match d.node p with
  | .ok n => n.isFolder
  | .error _ => false

def list (d : Disk) (p : Path) : Except Error (List (String × Node)) := do
  match ← d.node p with
  | .file _ => throw .notFolder
  | .folder entries => return entries

def change (d : Disk) (place : List String)
    (f : List (String × Node) → List (String × Node)) : Disk :=
  { d with root := d.root.change f place }

def put (d : Disk) (place : List String) (n : Node) : Disk :=
  d.change place.dropLast (Node.setEntry (place.getLastD "") n)

def drop (d : Disk) (place : List String) : Disk :=
  d.change place.dropLast (Node.dropEntry (place.getLastD ""))

def write (d : Disk) (p : Path) (content : ByteArray) : Except Error Disk := do
  let place ← d.place p
  match d.at? place with
  | some (.folder _) => throw .isFolder
  | _ => return d.put place (.file content)

def makeFolder (d : Disk) (p : Path) : Except Error Disk := do
  let place ← d.place p
  match d.at? place with
  | some _ => throw .exists
  | none => return d.put place (.folder [])

/-- Makes a folder, with those above it, unless it is there. `depth` bounds how many are made. -/
def makeFoldersWithin : (depth : Nat) → Disk → Path → Except Error Disk
  | 0, d, _ => .ok d
  | depth + 1, d, p =>
    match d.makeFolder p with
    | .ok d => .ok d
    | .error .notFound => do
      let d ← makeFoldersWithin depth d p.parent
      match d.makeFolder p with
      | .ok d => return d
      | .error e => if d.hasFolder p then return d else throw e
    | .error e => if d.hasFolder p then .ok d else .error e

def makeFolders (d : Disk) (p : Path) : Except Error Disk :=
  makeFoldersWithin (p.parts.length + 1) d p

/-- Removes a folder with all it holds. The entries go first: of the folder that paths start from,
named by a point, and of a folder named by a way down and up again, only these are removed. The one
is refused, and to the other the way is then lost. -/
def removeFolder (d : Disk) (p : Path) : Except Error Unit × Disk :=
  match d.node p, d.place p with
  | .error e, _ => (.error e, d)
  | _, .error e => (.error e, d)
  | .ok (.file _), _ => (.error .notFolder, d)
  | .ok (.folder _), .ok place =>
    if p.parts.isEmpty then (.error .notRemovable, d.change place fun _ => [])
    else if p.name = ".." then (.error .notFound, d.change place fun _ => [])
    else (.ok (), d.drop place)

/-- Moves a file or a folder to another name. A folder goes only where nothing is, a file only where
no folder is. -/
def move (d : Disk) (p q : Path) : Except Error Disk := do
  let source ← d.place p
  let target ← d.place q
  match d.at? source, d.at? target with
  | none, _ => throw .notFound
  | some (.file _), some (.folder _) => throw .isFolder
  | some (.folder _), some _ => throw .exists
  | some n, _ => return (d.drop source).put target n

end Disk

end SoundAtlas
