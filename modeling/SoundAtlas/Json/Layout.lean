import SoundAtlas.Json.Display
import SoundAtlas.Text.Line

/-!
How documents are laid out for a reader: as messages show them if that fits in a line, and with each
item, each member and each piece of a long text in a line of its own if not. The members of objects
are in the order of their keys.
-/

namespace SoundAtlas.Json

open SoundAtlas.Text (quoted blanks)

def lineWidth : Nat := 80

/-! ### The order of members -/

mutual

/-- The document with the members of all its objects in the order of their keys. -/
def sorted : Json → Json
  | .arr vs => .arr (sortedItems vs)
  | .obj ms => .obj ((sortedMembers ms).mergeSort fun a b => decide (a.1.codes ≤ b.1.codes))
  | v => v

def sortedItems : List Json → List Json
  | [] => []
  | v :: vs => sorted v :: sortedItems vs

def sortedMembers : List (Text × Json) → List (Text × Json)
  | [] => []
  | m :: ms => (m.1, sorted m.2) :: sortedMembers ms

end

/-! ### Texts -/

def endsLine (n : Nat) : Bool :=
  (0x0a ≤ n && n ≤ 0x0d) || (0x1c ≤ n && n ≤ 0x1e) || n == 0x85 || n == 0x2028 || n == 0x2029

def isBlankCode (n : Nat) : Bool :=
  SoundAtlas.Text.isBlank (Char.ofNat n)

/-- The lines of a text with their ends; a carriage return and a line feed are one end. -/
def linesOf (codes : List Nat) : List (List Nat) :=
  codes.splitBy fun a b => !endsLine a || (a == 0x0d && b == 0x0a)

def wordsOf (codes : List Nat) : List (List Nat) :=
  codes.splitBy fun a b => !(isBlankCode a && !isBlankCode b)

/-- A piece of a text in quotes, unless it is empty. -/
def piece (codes : List Nat) : List String :=
  if codes.isEmpty then [] else [quoted codes]

/-- Words put together to pieces that fit, the last of them with less room. -/
def pieces (width lastWidth : Nat) (begun : List Nat) : List (List Nat) → List String
  | [] => piece begun
  | w :: ws =>
    if (if ws.isEmpty then lastWidth else width) < (quoted (begun ++ w)).length then
      piece begun ++ pieces width lastWidth w ws
    else pieces width lastWidth (begun ++ w) ws

def linePieces (width lastWidth : Nat) : List (List Nat) → List String
  | [] => []
  | l :: ls =>
    let room := if ls.isEmpty then lastWidth else width
    (if (quoted l).length ≤ room then [quoted l] else pieces width room [] (wordsOf l)) ++
      linePieces width lastWidth ls

def layoutText (indent after : Nat) (codes : List Nat) : String :=
  if codes.isEmpty then quoted codes
  else
    ("\n" ++ blanks indent).intercalate
      (linePieces (lineWidth - indent) (lineWidth - indent - after) (linesOf codes))

/-! ### Documents -/

/-- Whether a document fits in what is left of a line that has `indent` characters before it and
`after` characters after it. -/
def fits (indent after : Nat) (v : Json) : Bool :=
  v.display.length ≤ lineWidth - indent - after

def lineBreak (indent : Nat) : String :=
  ",\n" ++ blanks indent

mutual

/-- A document whose objects are sorted, at a place of a line. -/
def layoutFrom (indent after : Nat) : Json → String
  | .arr vs =>
    if fits indent after (.arr vs) then (Json.arr vs).display
    else "[" ++ layoutItems (indent + 1) (after + 1) vs ++ "]"
  | .obj ms =>
    if fits indent after (.obj ms) then (Json.obj ms).display
    else "\x7b" ++ layoutMembers (indent + 1) (after + 1) ms ++ "\x7d"
  | .str s =>
    if fits indent after (.str s) then (Json.str s).display else layoutText indent after s.codes
  | v => v.display

def layoutItems (indent after : Nat) : List Json → String
  | [] => ""
  | [v] => layoutFrom indent after v
  | v :: vs => layoutFrom indent 1 v ++ lineBreak indent ++ layoutItems indent after vs

def layoutMembers (indent after : Nat) : List (Text × Json) → String
  | [] => ""
  | [m] =>
    let key := quoted m.1.codes ++ ": "
    key ++ layoutFrom (indent + key.length) after m.2
  | m :: ms =>
    let key := quoted m.1.codes ++ ": "
    key ++ layoutFrom (indent + key.length) 1 m.2 ++ lineBreak indent ++
      layoutMembers indent after ms

end

mutual

/-- How deeply arrays and objects are nested in a document. -/
def depth : Json → Nat
  | .arr vs => depthOfItems vs + 1
  | .obj ms => depthOfMembers ms + 1
  | _ => 0

def depthOfItems : List Json → Nat
  | [] => 0
  | v :: vs => max v.depth (depthOfItems vs)

def depthOfMembers : List (Text × Json) → Nat
  | [] => 0
  | m :: ms => max m.2.depth (depthOfMembers ms)

end

/-- A document laid out, unless it is nested more deeply than the limit. -/
def layout? (limit : Nat) (v : Json) : Option String :=
  if limit < v.depth then none else some (layoutFrom 0 0 v.sorted)

end SoundAtlas.Json
