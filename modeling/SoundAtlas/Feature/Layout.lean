import SoundAtlas.Feature.Registry

/-!
The layout of input vectors: the values of the features one after the other, in the order of their
names. The weights have the same layout.
-/

namespace SoundAtlas.Feature

/-- Puts a name into an ascending list, unless it is there. -/
def insertName (name : FeatureName) : List FeatureName → List FeatureName
  | [] => [name]
  | n :: ns =>
    if name = n then n :: ns
    else if name.codes < n.codes then name :: n :: ns
    else n :: insertName name ns

/-- The names in ascending order, each once. -/
def orderedNames (names : List FeatureName) : List FeatureName :=
  names.foldr insertName []

/-- How many values a set of features has together. -/
def totalDimensions (r : Registry) (names : List FeatureName) : Except Error Int := do
  let sizes ← (orderedNames names).mapM r.dimensions
  return sizes.foldl (· + ·) 0

/-- The values that a track has for features, in the order in which they were found. -/
abbrev Values := List (FeatureName × List Float)

/-- A feature of which a track has not the declared number of values. -/
structure Mismatch where
  name : FeatureName
  expected : Int
  actual : Nat
deriving DecidableEq, Repr

def Mismatch.report (m : Mismatch) : Json.Text :=
  .chars "Dimension mismatch for feature '" ++ m.name ++
    .chars s!"'. Expected {m.expected}, got {m.actual}"

/-- The values of features one after the other, or the first feature with the wrong number of them.
A feature that is missing has no values. -/
def inputVector (r : Registry) (values : Values) : List FeatureName →
    Except Error (Except Mismatch (List Float))
  | [] => .ok (.ok [])
  | name :: names => do
    let expected ← r.dimensions name
    let found := (values.lookup name).getD []
    if (found.length : Int) ≠ expected then return .error ⟨name, expected, found.length⟩
    match ← inputVector r values names with
    | .ok rest => return .ok (found ++ rest)
    | .error m => return .error m

/-- Whether a whole number fits into a signed word of 64 bits. -/
def isCount (n : Int) : Bool :=
  decide (-0x8000000000000000 ≤ n) && decide (n < 0x8000000000000000)

/-- So many times the same value; none for a negative number. There is room for fewer values than
`room`. -/
def repeated (room : Nat) (n : Int) (x : Float) : Except Error (List Float) :=
  if !isCount n then .error .noCount
  else if (room : Int) ≤ n then .error .noRoom
  else .ok (List.replicate n.toNat x)

/-- The weights of one feature: its weight is shared evenly among its values. -/
def sharedWeight (room : Nat) (r : Registry) (s : FeatureSettings) (name : FeatureName) :
    Except Error (List Float) := do
  let n ← r.dimensions name
  let weight := (List.lookup name s).getD 0.0
  let share ← (Number.divideByInt weight n).mapError .arithmetic
  repeated room n share

def inputWeights (room : Nat) (r : Registry) (s : FeatureSettings) : Except Error (List Float) := do
  let shares ← (orderedNames s.names).mapM (sharedWeight room r s)
  if room ≤ shares.flatten.length then throw .noRoom
  return shares.flatten

end SoundAtlas.Feature
