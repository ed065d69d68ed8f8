import SoundAtlas.Number.Binary

/-!
Whole numbers and their quotients as floats: the nearest float, or a cause why there is none.
-/

namespace SoundAtlas.Number

open Float.Model

inductive ArithmeticError where
  /-- The divisor is zero, or zero has a negative exponent. -/
  | divisionByZero
  /-- The result is beyond the range of floats. -/
  | tooLarge
  /-- The power is not real. -/
  | notReal
deriving DecidableEq, Repr

/-- A whole number as the nearest float, if it is within range. -/
def floatOfInt? (n : Int) : Option Float :=
  let x := Float.ofInt n
  if x.isInf then none else some x

/-- The nearest float of `a / b`: the quotient is cut to at least 53 bits, and rounded with what is
known of the rest. -/
def nearestRatio (a b : Nat) : Float :=
  let (mantissa, exponent, rest) := UnpackedFloat.divCore .binary64 a 0 b 0
  .ofModel (.pack (.roundWithAccuracy .binary64 .positive mantissa exponent rest))

def quotient (a b : Int) : Except ArithmeticError Float :=
  if b = 0 then .error .divisionByZero
  else if a = 0 then .ok (if b < 0 then -0.0 else 0.0)
  else
    let size := nearestRatio a.natAbs b.natAbs
    if size.isInf then .error .tooLarge
    else .ok (if (a < 0) ≠ (b < 0) then -size else size)

def divideByInt (x : Float) (n : Int) : Except ArithmeticError Float :=
  match floatOfInt? n with
  | none => .error .tooLarge
  | some d => if n = 0 then .error .divisionByZero else .ok (x / d)

def divideInt (n : Int) (x : Float) : Except ArithmeticError Float :=
  match floatOfInt? n with
  | none => .error .tooLarge
  | some d => if x == 0.0 then .error .divisionByZero else .ok (d / x)

def isWhole (x : Float) : Bool :=
  match parts x with
  | .finite _ m e => decide (0 ≤ e) || m % (1 <<< (-e).toNat) == 0
  | _ => false

/-- A power of floats. A finite result is not allowed to overflow; with an exponent from zero to one
none does. -/
def power (base exponent : Float) : Except ArithmeticError Float :=
  if base == 0.0 && exponent < 0.0 then .error .divisionByZero
  else if base < 0.0 && base.isFinite && exponent.isFinite && !isWhole exponent then
    .error .notReal
  else
    let x := base.pow exponent
    let isRoot := decide (0.0 ≤ exponent) && decide (exponent ≤ 1.0)
    if x.isInf && base.isFinite && exponent.isFinite && !isRoot then .error .tooLarge else .ok x

end SoundAtlas.Number
