/-!
JSON documents. Whole numbers and floats are kept apart, as a document writes them apart, and the
members of an object keep their order.
-/

namespace SoundAtlas

/-- A text in a document. A document can write a surrogate without its pair, which no `String`
holds; a text with one, and no other, is kept as its code points. -/
inductive Json.Text where
  | chars (s : String)
  | broken (codes : List Nat) (h : ¬ ∀ n ∈ codes, n.isValidChar)
deriving DecidableEq, Repr

inductive Json where
  | null
  | bool (b : Bool)
  | int (n : Int)
  | float (x : Float)
  | str (s : Json.Text)
  | arr (items : List Json)
  | obj (members : List (Json.Text × Json))

instance : Inhabited Json := ⟨.null⟩

def Json.string (s : String) : Json :=
  .str (.chars s)

namespace Json.Text

def codes : Json.Text → List Nat
  | .chars s => s.toList.map Char.toNat
  | .broken cs _ => cs

def ofCodes (cs : List Nat) : Json.Text :=
  if h : ∀ n ∈ cs, n.isValidChar then .chars (String.ofList (cs.map Char.ofNat))
  else .broken cs h

/-- The characters of a text, with a question mark for each lone surrogate. -/
def legible : Json.Text → String
  | .chars s => s
  | .broken cs _ => String.ofList (cs.map fun n => if n.isValidChar then Char.ofNat n else '?')

def append : Json.Text → Json.Text → Json.Text
  | .chars s, .chars t => .chars (s ++ t)
  | s, t => .ofCodes (s.codes ++ t.codes)

instance : Append Json.Text := ⟨append⟩

instance : Coe String Json.Text := ⟨.chars⟩

end Json.Text

/-- Members with the value of one key set: the first member of the key gets the new value, a new key
goes to the end. -/
def Json.setMember (key : Json.Text) (value : Json) :
    List (Json.Text × Json) → List (Json.Text × Json)
  | [] => [(key, value)]
  | m :: ms => if m.1 = key then (key, value) :: ms else m :: Json.setMember key value ms

/-- An object of members given one after the other: of two with one key the last value counts, at
the place of the first. -/
def Json.ofMembers (ms : List (Json.Text × Json)) : Json :=
  .obj (ms.foldl (fun acc m => Json.setMember m.1 m.2 acc) [])

/-- An object whose keys are plain and distinct. -/
def Json.object (ms : List (String × Json)) : Json :=
  .obj (ms.map fun m => (.chars m.1, m.2))

end SoundAtlas
