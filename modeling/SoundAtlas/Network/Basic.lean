import SoundAtlas.Grid
import SoundAtlas.Numeric.Tensor
import SoundAtlas.Random.Pcg

/-!
Networks: a grid whose cells each own a reference vector of one length, with a weight for every
component. The sizes are in the types, so that no operation can leave a network with a vector too
many or one of the wrong length.
-/

namespace SoundAtlas

namespace Network

inductive State where
  | uninitialized
  | training
  | trained
  | aborted
deriving DecidableEq, Repr

def State.name : State → String
  | .uninitialized => "uninitialized"
  | .training => "training"
  | .trained => "trained"
  | .aborted => "aborted"

inductive Error where
  | gridSize (width height : Int)
  | noDimensions
  | negativeSeed
  /-- An array cannot have so many entries. -/
  | tooManyEntries
  /-- There is no room for so many entries. -/
  | noRoom
  | references (shape : List Nat) (width height : Int)
  | weights (expected : Nat) (shape : List Nat)
  | vector (expected : Nat) (shape : List Nat)
  | notTrained (state : State)
  | alreadyUsed (state : State)
  | noIterations
  | samples (shape : List Nat)
  | sampleWidth (expected actual : Nat)
  | outside (p : Position) (grid : Grid)
  | array (e : Tensor.Error)
  | arithmetic (e : Number.ArithmeticError)
deriving DecidableEq, Repr

/-- The wording of a refusal. Values that are no array, seeds and arithmetic have none. -/
def Error.message? : Error → Option String
  | .gridSize w h => some s!"Invalid grid size {w}x{h}"
  | .noDimensions => some "dimensions must be at least 1"
  | .references shape w h =>
    some s!"ref_vectors shape {Tensor.shapeText shape} does not match a {w}x{h} grid"
  | .weights n shape =>
    some s!"Weights dimension mismatch: expected {n}, got {Tensor.shapeText shape}"
  | .vector n shape =>
    some s!"Vector dimension mismatch: expected {n}, got {Tensor.shapeText shape}"
  | .notTrained state => some s!"Network is not trained (state: {state.name})"
  | .alreadyUsed state => some s!"Cannot train a network in state {state.name}"
  | .noIterations => some "iteration_count must be positive"
  | .samples shape => some s!"Expected non-empty 2D samples, got shape {Tensor.shapeText shape}"
  | .sampleWidth n m => some s!"Sample dimension mismatch: expected {n}, got {m}"
  | .outside p grid => some s!"Position {p.text} outside {grid.text} grid"
  | .negativeSeed | .tooManyEntries | .noRoom | .array _ | .arithmetic _ => none

/-- The sizes of a network: at least one cell, at least one component. -/
structure Shape where
  grid : Grid
  dimensions : Nat
  width_pos : 0 < grid.width
  height_pos : 0 < grid.height
  dimensions_pos : 0 < dimensions
deriving DecidableEq

namespace Shape

def check (width height dimensions : Int) : Except Error Shape :=
  if h : width < 1 ∨ height < 1 then .error (.gridSize width height)
  else if hd : dimensions < 1 then .error .noDimensions
  else .ok
    { grid := ⟨width.toNat, height.toNat⟩
      dimensions := dimensions.toNat
      width_pos := by change 0 < width.toNat; omega
      height_pos := by change 0 < height.toNat; omega
      dimensions_pos := by omega }

abbrev Cell (s : Shape) := s.grid.Cell

theorem size_pos (s : Shape) : 0 < s.grid.size :=
  Nat.mul_pos s.width_pos s.height_pos

def corner (s : Shape) : s.Cell :=
  ⟨0, s.size_pos⟩

/-- What is compared: a sample, the floats of a reference vector, those of the weights. -/
abbrev Sample (s : Shape) := Vector Float s.dimensions

/-- A vector as a network stores it, bit by bit. -/
abbrev Stored (s : Shape) := Vector UInt64 s.dimensions

abbrev References (s : Shape) := Vector s.Stored s.grid.size

def evenWeights (s : Shape) : s.Stored :=
  Vector.replicate s.dimensions (Float.toBits 1.0)

end Shape

/-- The learning rate of the first iteration, unless another is given. -/
def defaultRate : Float := 0.5

/-- The radius of the last iteration, unless another is given. -/
def defaultRadius : Float := 0.5

end Network

/-- A network. What it has learned is stored in words, so that a float that is no number keeps its
bits. -/
structure Network extends Network.Shape where
  references : toShape.References
  weights : toShape.Stored
  state : Network.State
  initialRate : Float
  finalRadius : Float

namespace Network

def vectors (n : Network) : List (List Float) :=
  n.references.toList.map fun v => (Number.floats v).toList

/-- Whether two networks have the same sizes and equal vectors and weights. As a comparison of
floats it tells a NaN from itself, and takes both zeros for one. -/
def same (a b : Network) : Bool :=
  decide (a.grid = b.grid) && decide (a.dimensions = b.dimensions) && a.vectors == b.vectors &&
    (Number.floats a.weights).toList == (Number.floats b.weights).toList

def text (n : Network) : String :=
  s!"Network(width={n.grid.width}, height={n.grid.height}, dimensions={n.dimensions}, " ++
    s!"state={n.state.name})"

def requireArray {α : Type} (t : Except Tensor.Error (Tensor α)) : Except Error (Tensor α) :=
  t.mapError .array

/-- An untrained network of random reference vectors, drawn cell by cell. -/
def random {γ : Type} [Random.Source γ] (s : Shape) (rate radius : Float) (g : γ) : Network × γ :=
  let drawn := Random.fill (Random.fill Random.Source.unit s.dimensions) s.grid.size g
  ({ toShape := s
     references := drawn.1.map Number.bits
     weights := s.evenWeights
     state := .uninitialized
     initialRate := rate
     finalRadius := radius }, drawn.2)

/-- Fails if reference vectors of these sizes cannot be stored: the bytes of an array, eight to an
entry, are counted in a signed word of 64 bits, and there is room for fewer entries than `room`. -/
def checkRoom (room : Nat) (s : Shape) : Except Error Unit :=
  let entries := s.grid.size * s.dimensions
  if 0x8000000000000000 ≤ 8 * entries then .error .tooManyEntries
  else if room ≤ entries then .error .noRoom
  else .ok ()

/-- An untrained network whose random reference vectors are those of a seed. -/
def seeded (room : Nat) (width height dimensions : Int) (rate radius : Float) (seed : Int) :
    Except Error (Network × Random.Pcg) := do
  let s ← Shape.check width height dimensions
  if seed < 0 then throw .negativeSeed
  checkRoom room s
  return random s rate radius (Random.Pcg.ofSeed seed.toNat)

def setWeights (n : Network) (weights : Except Tensor.Error (Tensor UInt64)) :
    Except Error Network := do
  let t ← requireArray weights
  match t.vector? n.dimensions with
  | some w => return { n with weights := w }
  | none => throw (.weights n.dimensions t.shape)

/-- The trained network of given reference vectors and weights. -/
def ofArrays (width height : Int) (references weights : Except Tensor.Error (Tensor UInt64)) :
    Except Error Network := do
  let t ← requireArray references
  match t.shape with
  | [count, dimensions] =>
    if (count : Int) ≠ width * height then throw (.references t.shape width height)
    let s ← Shape.check width height dimensions
    match t.matrix? s.grid.size s.dimensions with
    | some vectors =>
      setWeights
        { toShape := s
          references := vectors
          weights := s.evenWeights
          state := .trained
          initialRate := defaultRate
          finalRadius := defaultRadius }
        weights
    | none => throw (.references t.shape width height)
  | shape => throw (.references shape width height)

def cellAt (n : Network) (p : Position) : Except Error n.Cell :=
  match n.grid.cell? p with
  | some c => .ok c
  | none => .error (.outside p n.grid)

def referenceAt (n : Network) (p : Position) : Except Error n.Sample :=
  (n.cellAt p).map fun c => Number.floats (n.references.get c)

def requireTrained (n : Network) : Except Error Unit :=
  if n.state = .trained then .ok () else .error (.notTrained n.state)

end Network

end SoundAtlas
