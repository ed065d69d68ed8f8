import SoundAtlas.Numeric.Tensor

/-!
Scaling of samples: every component is brought to the interval from zero to one by the least and the
greatest value that it has in the samples that the scaling was fitted to.
-/

namespace SoundAtlas.Feature

/-- What a component is multiplied with, and what is added then. -/
structure Factor where
  scale : Float
  offset : Float
deriving Repr

inductive Fit where
  /-- It was never fitted. -/
  | unfitted
  /-- It was fitted to samples that have no factors. -/
  | failed
  | fitted (factors : List Factor)

structure Scaling where
  dimensions : Int
  fit : Fit

namespace Scaling

inductive Error where
  | samples (shape : List Nat)
  | sampleWidth (expected : Int) (actual : Nat)
  | unfitted
  /-- The last fit has failed. -/
  | noFactors
  /-- A single number has no components. -/
  | noAxis
  /-- There is an infinity, no sample, no component, or not a list of samples. -/
  | unscalable
  | array (e : Tensor.Error)
deriving DecidableEq, Repr

def Error.message? : Error → Option String
  | .samples shape => some s!"Expected non-empty 2D samples, got shape {Tensor.shapeText shape}"
  | .sampleWidth n m => some s!"Sample dimension mismatch: expected {n}, got {m}"
  | .unfitted =>
    some "Normalization factors not computed. Call compute_normalization_factors() first."
  | .noFactors | .noAxis | .unscalable | .array _ => none

def ofDimensions (n : Int) : Scaling :=
  { dimensions := n, fit := .unfitted }

/-- Whether the scaling was ever fitted, be it in vain. -/
def isFitted (s : Scaling) : Bool :=
  match s.fit with
  | .unfitted => false
  | _ => true

/-- The lesser value; a value that is no number does not count. -/
def lesser (x y : Float) : Float :=
  if x.isNaN then y else if y < x then y else x

/-- The greater value; a value that is no number does not count. -/
def greater (x y : Float) : Float :=
  if x.isNaN then y else if x < y then y else x

/-- The least range that is not taken for none: ten times the distance of one to the next float. -/
def leastRange : Float := 10.0 * Float.scaleB 1.0 (-52)

def factorOf (column : List Float) : Factor :=
  let low := column.foldl lesser (0.0 / 0.0)
  let high := column.foldl greater (0.0 / 0.0)
  let range := high - low
  let scale := 1.0 / (if range < leastRange then 1.0 else range)
  { scale := scale, offset := 0.0 - low * scale }

def columns (width : Nat) (rows : List (List Float)) : List (List Float) :=
  (List.range width).map fun j => rows.map fun row => row.getD j 0.0

/-- The rows of an array that can be scaled: a matrix with entries, none of them infinite. -/
def scalableRows (t : Tensor) : Except Error (List (List Float)) :=
  match t.shape with
  | [0, _] => .error .unscalable
  | [_, 0] => .error .unscalable
  | [_, _] => if t.entries.any Float.isInf then .error .unscalable else .ok t.rows
  | _ => .error .unscalable

/-- Fits the scaling to samples, with all that may go wrong. Samples of a wrong shape are refused
and change nothing; those that have no factors leave the scaling without. -/
def fitTo (s : Scaling) (samples : Except Tensor.Error Tensor) : Except Error Unit × Scaling :=
  match samples with
  | .error e => (.error (.array e), s)
  | .ok t =>
    match t.shape with
    | [0, _] => (.error (.samples t.shape), s)
    | [_, width] =>
      if (width : Int) ≠ s.dimensions then (.error (.sampleWidth s.dimensions width), s)
      else
        match scalableRows t with
        | .ok rows => (.ok (), { s with fit := .fitted ((columns width rows).map factorOf) })
        | .error e => (.error e, { s with fit := .failed })
    | shape => (.error (.samples shape), s)

def scaleRow (factors : List Factor) (row : List Float) : List Float :=
  List.zipWith (fun f x => x * f.scale + f.offset) factors row

def scaleTensor (s : Scaling) (t : Tensor) : Except Error (List (List Float)) :=
  match t.shape.getLast? with
  | none => .error .noAxis
  | some width =>
    if (width : Int) ≠ s.dimensions then .error (.sampleWidth s.dimensions width)
    else
      match s.fit with
      | .unfitted => .error .unfitted
      | .failed => .error .noFactors
      | .fitted factors => (scalableRows t).map fun rows => rows.map (scaleRow factors)

def scaleAll (s : Scaling) (samples : Except Tensor.Error Tensor) :
    Except Error (List (List Float)) :=
  match s.fit, samples with
  | .unfitted, _ => .error .unfitted
  | _, .error e => .error (.array e)
  | _, .ok t => s.scaleTensor t

/-- Scales one sample, whatever the nesting of its values. -/
def scale (s : Scaling) (sample : Except Tensor.Error Tensor) : Except Error (List Float) :=
  match sample with
  | .error e => .error (.array e)
  | .ok t =>
    match Tensor.ofEntries [1, t.entries.length] t.entries with
    | .error e => .error (.array e)
    | .ok row => (s.scaleAll (.ok row)).map fun rows => rows.headD []

end Scaling

end SoundAtlas.Feature
