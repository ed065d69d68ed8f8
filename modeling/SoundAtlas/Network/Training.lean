import SoundAtlas.Network.Distance
import SoundAtlas.Number.Quotient

/-!
Training: in every iteration all samples are presented once, in random order, and each pulls the
reference vectors around its closest cell towards itself. Someone may watch: before an iteration
they are asked whether to stop, and then told which iteration begins.
-/

namespace SoundAtlas.Network

/-! ### The schedule -/

/-- The share of the way that an iteration's samples pull: it falls from the initial rate evenly,
and would be zero after the last iteration. -/
def learningRate (n : Network) (iteration count : Int) : Except Number.ArithmeticError Float := do
  let done ← Number.quotient iteration count
  return n.initialRate * (1.0 - done)

/-- The radius of the first iteration: half of the longer side of the grid, or the final radius if
that is greater. -/
def startRadius (n : Network) : Float :=
  let half := Float.ofNat (max n.grid.width n.grid.height) / 2.0
  if half < n.finalRadius then n.finalRadius else half

/-- How far around the closest cell samples pull: it falls by the same factor in every iteration
and reaches the final radius in the last one. -/
def radius (n : Network) (iteration count : Int) : Except Number.ArithmeticError Float :=
  let start := n.startRadius
  if count ≤ 1 then .ok start
  else do
    let progress ← Number.quotient iteration (count - 1)
    let factor ← Number.power (n.finalRadius / start) progress
    return start * factor

/-! ### Presenting samples -/

/-- The strength of the pull on a cell whose squared distance on the grid is given. -/
def influence (radius : Float) (square : Int) : Float :=
  (-Float.ofInt square / (2.0 * radius * radius)).exp

namespace Shape

def present (s : Shape) (weights : s.Stored) (rate radius : Float) (references : s.References)
    (sample : s.Sample) : s.References :=
  let closest := s.closestCell weights references sample
  references.mapFinIdx fun i v hi =>
    let pull := rate * influence radius (s.grid.squareDistance ⟨i, hi⟩ closest)
    Number.bits (Vector.zipWith (fun x y => x + pull * (y - x)) (Number.floats v) sample)

def presentAll (s : Shape) (weights : s.Stored) (rate radius : Float) (references : s.References)
    (samples : List s.Sample) : s.References :=
  samples.foldl (s.present weights rate radius) references

end Shape

/-! ### Cancellation -/

/-- A flag that tells whether to stop. It can be set, and never be taken back. -/
structure CancellationToken where
  isCancelled : Bool
deriving DecidableEq, Repr

namespace CancellationToken

def fresh : CancellationToken :=
  ⟨false⟩

def cancel (_ : CancellationToken) : CancellationToken :=
  ⟨true⟩

end CancellationToken

/-! ### Iterations -/

/-- Who watches a training. What they remember changes with every question and every message, and
a message may be answered with a failure. -/
structure Watch (σ ε : Type) where
  /-- Whether to stop. -/
  poll : σ → Bool × σ
  /-- Hears that an iteration of so many begins. -/
  announce : Nat → Nat → σ → Except ε Unit × σ

inductive Ending (ε : Type) where
  | finished
  | cancelled
  /-- The watcher failed. -/
  | watcher (e : ε)
  /-- The schedule has no value for an iteration. -/
  | arithmetic (e : Number.ArithmeticError)
deriving DecidableEq

structure Course (s : Shape) (γ σ ε : Type) where
  ending : Ending ε
  references : s.References
  generator : γ
  watcher : σ

/-- The last `left` of `count` iterations. A radius that is not real is noticed only when the order
of the samples has been drawn. -/
def iterate {γ σ ε : Type} [Random.Source γ] (n : Network) (samples : Array n.Sample)
    (watch : Watch σ ε) (count : Nat) :
    (left : Nat) → n.References → γ → σ → Course n.toShape γ σ ε
  | 0, references, g, w => ⟨.finished, references, g, w⟩
  | left + 1, references, g, w =>
    let iteration := count - (left + 1)
    let asked := watch.poll w
    if asked.1 then ⟨.cancelled, references, g, asked.2⟩
    else
      let told := watch.announce iteration count asked.2
      match told.1 with
      | .error e => ⟨.watcher e, references, g, told.2⟩
      | .ok () =>
        match n.learningRate iteration count, n.radius iteration count with
        | .ok rate, .ok radius =>
          let drawn := Random.Source.permutation samples.size g
          let references := n.presentAll n.weights rate radius references
            (drawn.1.map fun i => samples[i])
          iterate n samples watch count left references drawn.2 told.2
        | .ok _, .error .notReal =>
          ⟨.arithmetic .notReal, references, (Random.Source.permutation samples.size g).2, told.2⟩
        | .ok _, .error e => ⟨.arithmetic e, references, g, told.2⟩
        | .error e, _ => ⟨.arithmetic e, references, g, told.2⟩

/-- Why a training ends without a network that is trained or aborted. -/
inductive TrainError (ε : Type) where
  | network (e : Error)
  | watcher (e : ε)
deriving DecidableEq

structure Training (γ σ ε : Type) where
  result : Except (TrainError ε) State
  network : Network
  generator : γ
  watcher : σ

def trainingSamples (n : Network) (samples : Except Tensor.Error Tensor) (count : Int) :
    Except Error (Array n.Sample) := do
  if n.state ≠ .uninitialized then throw (.alreadyUsed n.state)
  if count ≤ 0 then throw .noIterations
  let t ← requireArray samples
  match t.shape with
  | [0, _] => throw (.samples t.shape)
  | [rows, width] =>
    match t.matrix? rows n.dimensions with
    | some m => return m.toArray
    | none => throw (.sampleWidth n.dimensions width)
  | shape => throw (.samples shape)

/-- The state in which a run of iterations leaves a network, and the result that it reports. -/
def Ending.result {ε : Type} : Ending ε → State × Except (TrainError ε) State
  | .finished => (.trained, .ok .trained)
  | .cancelled => (.aborted, .ok .aborted)
  | .watcher e => (.training, .error (.watcher e))
  | .arithmetic e => (.training, .error (.network (.arithmetic e)))

/-- Trains an untrained network for `count` iterations. A request that is refused changes nothing;
a training that fails on the way leaves the network in training for ever. -/
def train {γ σ ε : Type} [Random.Source γ] (n : Network) (samples : Except Tensor.Error Tensor)
    (count : Int) (watch : Watch σ ε) (g : γ) (w : σ) : Training γ σ ε :=
  match n.trainingSamples samples count with
  | .error e => ⟨.error (.network e), n, g, w⟩
  | .ok samples =>
    let course := n.iterate samples watch count.toNat count.toNat n.references g w
    let ended := course.ending.result
    { result := ended.2
      network := { n with references := course.references, state := ended.1 }
      generator := course.generator
      watcher := course.watcher }

end SoundAtlas.Network
