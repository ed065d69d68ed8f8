import SoundAtlas.Feature.Registry
import SoundAtlas.Settings.Basic

/-!
What a training is asked for: the features, the number of iterations, and how many samples there
should be for each cell of the grid.
-/

namespace SoundAtlas

structure TrainSettings where
  features : FeatureSettings
  iterations : Int
  perNeuron : Float

namespace TrainSettings

/-- What a training is asked for, if the numbers are positive. What is no number passes. -/
def make (features : FeatureSettings) (iterations : Int) (perNeuron : Float) :
    Except Settings.Error TrainSettings :=
  if iterations ≤ 0 then .error .iterations
  else if perNeuron ≤ 0.0 then .error .perNeuron
  else .ok ⟨features, iterations, perNeuron⟩

def ofSettings (s : Settings) (features : FeatureSettings) : Except Settings.Error TrainSettings :=
  make features s.iterations s.perNeuron

end TrainSettings

namespace Grid

inductive SizeError where
  | arithmetic (e : Number.ArithmeticError)
  /-- The number of cells would be negative or no number. -/
  | noRoot
  /-- The number of cells would be infinite. -/
  | infinite
deriving DecidableEq, Repr

def wholePart (x : Float) : Except SizeError Nat :=
  match Number.parts x with
  | .notANumber => .error .noRoot
  | .infinite _ => .error .infinite
  | .finite _ m e => .ok (Number.scaleDown m e)

/-- The side of the square grid for so many samples: the root of the number of cells, without what
is after the point, and at least two. -/
def sideFor (samples : Int) (perNeuron : Float) : Except SizeError Nat := do
  let cells ← (Number.divideInt samples perNeuron).mapError .arithmetic
  if cells < 0.0 then throw .noRoot
  return max 2 (← wholePart cells.sqrt)

end Grid

end SoundAtlas
