import SoundAtlas.Network.Basic
import SoundAtlas.Numeric.Statistics

/-!
Distances between samples and reference vectors: the root of the weighted sum of the squares of the
differences.
-/

namespace SoundAtlas.Network

def weightedDistance {d : Nat} (weights a b : Vector Float d) : Float :=
  (Numeric.sum (Vector.zipWith (fun square w => square * w)
    (Vector.zipWith (fun p q => (p - q) * (p - q)) a b) weights).toList).sqrt

namespace Shape

def sampleDistance (s : Shape) (weights : s.Stored) (references : s.References) (sample : s.Sample)
    (c : s.Cell) : Float :=
  weightedDistance (Number.floats weights) (Number.floats (references.get c)) sample

/-- The cell whose reference vector is closest to a sample; of several the first. If some distance
is no number, the first such cell. -/
def closestCell (s : Shape) (weights : s.Stored) (references : s.References) (sample : s.Sample) :
    s.Cell :=
  match s.grid.cells.map fun c => (c, s.sampleDistance weights references sample c) with
  | [] => s.corner
  | c :: cs => (Numeric.leader c cs).1

end Shape

def cellDistance (n : Network) (a b : n.Cell) : Float :=
  weightedDistance (Number.floats n.weights) (Number.floats (n.references.get a))
    (Number.floats (n.references.get b))

/-- The cell whose reference vector is closest to a sample. -/
def closestCell (n : Network) (sample : n.Sample) : n.Cell :=
  n.toShape.closestCell n.weights n.references sample

def checkVector (n : Network) (v : Except Tensor.Error Tensor) : Except Error n.Sample := do
  let t ← requireArray v
  match t.vector? n.dimensions with
  | some sample => return sample
  | none => throw (.vector n.dimensions t.shape)

/-- The position of the cell closest to a vector. Only a trained network answers. -/
def closestPosition (n : Network) (v : Except Tensor.Error Tensor) : Except Error Position := do
  n.requireTrained
  let sample ← n.checkVector v
  return n.grid.position (n.closestCell sample)

/-- The distance between the reference vectors at two positions. Only a trained network answers. -/
def distance (n : Network) (a b : Position) : Except Error Float := do
  n.requireTrained
  let c ← n.cellAt a
  let d ← n.cellAt b
  return n.cellDistance c d

/-- The distances between cells side by side, each pair once. -/
def neighborDistances (n : Network) : List Float :=
  n.grid.pairs.map fun p => n.cellDistance p.1 p.2

/-- The median distance between cells side by side; zero if there is only one cell. -/
def medianNeighborDistance (n : Network) : Float :=
  match n.neighborDistances with
  | [] => 0.0
  | ds => Numeric.median ds

end SoundAtlas.Network
