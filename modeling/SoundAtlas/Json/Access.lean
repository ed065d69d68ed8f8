import SoundAtlas.Json.Basic
import SoundAtlas.Number.Reading

/-!
Reading a document whose shape is only expected: each step names what it needs and fails with a
cause of its own.
-/

namespace SoundAtlas.Json

inductive ReadError where
  /-- An object lacks a key. -/
  | missing (key : String)
  /-- An object is needed for a look-up. -/
  | notObject
  /-- The value has no members to take one of. -/
  | noMembers
  /-- The value has no elements to go through. -/
  | noElements
  /-- A pair has not two elements. -/
  | notPair
  /-- A text or a float writes no whole number. -/
  | badInteger
  /-- An infinity is no whole number. -/
  | infiniteInteger
  /-- The value is of a kind that has no whole number. -/
  | noInteger
deriving DecidableEq, Repr

def find? (key : Text) (ms : List (Text × Json)) : Option Json :=
  (ms.find? (·.1 = key)).map (·.2)

def lookup (key : String) : Json → Except ReadError (Option Json)
  | .obj ms => .ok (find? (.chars key) ms)
  | _ => .error .notObject

def member (key : String) : Json → Except ReadError Json
  | .obj ms =>
    match find? (.chars key) ms with
    | some v => .ok v
    | none => .error (.missing key)
  | _ => .error .noMembers

def characters (s : Text) : List Json :=
  s.codes.map fun n => .str (.ofCodes [n])

/-- What going through a value meets: the items of an array, the keys of an object, the characters
of a string. -/
def elements : Json → Except ReadError (List Json)
  | .arr vs => .ok vs
  | .obj ms => .ok (ms.map fun m => .str m.1)
  | .str s => .ok (characters s)
  | _ => .error .noElements

def pair (v : Json) : Except ReadError (Json × Json) :=
  match v.elements with
  | .ok [a, b] => .ok (a, b)
  | .ok _ => .error .notPair
  | .error e => .error e

/-- The whole number of a float: what stands before the point. -/
def wholeOfFloat (x : Float) : Except ReadError Int :=
  match Number.parts x with
  | .notANumber => .error .badInteger
  | .infinite _ => .error .infiniteInteger
  | .finite negative m e => .ok (Number.signed negative (Number.scaleDown m e))

/-- The whole number that a value stands for: a number without what is after its point, one for
`true`, or a text that writes one. -/
def toInt : Json → Except ReadError Int
  | .int n => .ok n
  | .bool b => .ok (if b then 1 else 0)
  | .float x => wholeOfFloat x
  | .str (.chars s) =>
    match Number.readWhole? s with
    | some n => .ok n
    | none => .error .badInteger
  | .str (.broken ..) => .error .badInteger
  | _ => .error .noInteger

/-! ### Keys -/

def isKey : Json → Bool
  | .arr _ | .obj _ => false
  | _ => true

def whole? : Json → Option Int
  | .int n => some n
  | .bool b => some (if b then 1 else 0)
  | .float x => if x.floor == x then (wholeOfFloat x).toOption else none
  | _ => none

/-- Whether two values are one key: numbers are by their value, whatever way they are written. -/
def isSameKey : Json → Json → Bool
  | .str s, .str t => decide (s = t)
  | .null, .null => true
  | .float x, .float y => x == y
  | v, w =>
    match v.whole?, w.whole? with
    | some m, some n => m == n
    | _, _ => false

end SoundAtlas.Json
