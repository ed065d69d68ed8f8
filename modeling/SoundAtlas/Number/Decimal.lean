import SoundAtlas.Number.Binary

/-!
Floats in decimal: the nearest float of a decimal, and the shortest decimal that reads back as a
given float.

The shortest decimal of `v` is searched on the grids of one, two, ... significant digits. If a
grid has any point that reads back as `v`, one of the two neighbours of `v` on it does; the first
grid with such a neighbour wins, and of two neighbours the nearer one.
-/

namespace SoundAtlas.Number

/-- `digits * 10 ^ exponent` as the nearest float. Beyond four hundred places either way the
answer is an infinity or a zero whatever the digits are. -/
def ofDecimal (negative : Bool) (digits : Nat) (exponent : Int) : Float :=
  let places : Int := (toString digits).length + exponent
  let size : Float :=
    if digits = 0 ∨ places < -400 then 0.0
    else if places > 400 then 1.0 / 0.0
    else Float.ofScientific digits (decide (exponent < 0)) exponent.natAbs
  if negative then -size else size

/-- A decimal: `digits * 10 ^ exponent`. -/
structure Decimal where
  digits : Nat
  exponent : Int
deriving DecidableEq, Repr

/-- The decimal without zeros at its end; zero has exponent zero. -/
def Decimal.trim (d : Decimal) : Decimal :=
  go (toString d.digits).length d
where
  /-- Drops at most `fuel` zeros. -/
  go : Nat → Decimal → Decimal
    | 0, d => d
    | fuel + 1, d =>
      if d.digits = 0 then ⟨0, 0⟩
      else if d.digits % 10 = 0 then go fuel ⟨d.digits / 10, d.exponent + 1⟩
      else d

/-- A positive float `value / scale` with the ends of the interval of numbers that round to it, all
over one denominator `scale`; the ends belong to the interval if `closed`. -/
structure Rounding where
  value : Nat
  low : Nat
  high : Nat
  scale : Nat
  closed : Bool
deriving Repr

/-- The interval of numbers that round to `m * 2 ^ e`. Below a power of two the floats are twice as
dense, unless it is the least exponent. -/
def Rounding.ofParts (m : Nat) (e : Int) : Rounding :=
  let down := if m = leadingOne ∧ e ≠ -1074 then 1 else 2
  let up := if 0 ≤ e then 1 <<< e.toNat else 1
  let scale := if 0 ≤ e then 4 else 4 <<< (-e).toNat
  { value := 4 * m * up
    low := (4 * m - down) * up
    high := (4 * m + 2) * up
    scale := scale
    closed := m % 2 == 0 }

def Rounding.holds (r : Rounding) (n d : Nat) : Bool :=
  if r.closed then r.low * d ≤ n * r.scale && n * r.scale ≤ r.high * d
  else r.low * d < n * r.scale && n * r.scale < r.high * d

/-- The numerator and the denominator of `n * 10 ^ e`. -/
def tenfold (n : Nat) (e : Int) : Nat × Nat :=
  if 0 ≤ e then (n * Nat.pow 10 e.toNat, 1) else (n, Nat.pow 10 (-e).toNat)

/-- The least `k` with `value < 10 ^ k`: the number of places before the point. -/
def Rounding.magnitude (r : Rounding) : Int :=
  let guess : Int := (toString r.value).length - (toString r.scale).length
  let bound := tenfold 1 guess
  if r.value * bound.2 < bound.1 * r.scale then guess else guess + 1

/-- The neighbours of the float on the grid of multiples of `10 ^ e` that read back as the float;
the nearer one, on a tie the even one, if both do. -/
def Rounding.onGrid (r : Rounding) (e : Int) : Option Decimal :=
  let unit := tenfold 1 e
  let below := r.value * unit.2 / (r.scale * unit.1)
  let point (n : Nat) : Nat × Nat := (n * unit.1, unit.2)
  let fits (n : Nat) : Bool := r.holds (point n).1 (point n).2
  match fits below, fits (below + 1) with
  | false, false => none
  | true, false => some ⟨below, e⟩
  | false, true => some ⟨below + 1, e⟩
  | true, true =>
    let doubled := 2 * r.value * unit.2
    let middle := (2 * below + 1) * (r.scale * unit.1)
    if doubled < middle ∨ (doubled = middle ∧ below % 2 = 0) then some ⟨below, e⟩
    else some ⟨below + 1, e⟩

/-- The shortest decimal that reads back as the positive float `m * 2 ^ e`. Seventeen digits are
always enough. -/
def shortest (m : Nat) (e : Int) : Decimal :=
  let r := Rounding.ofParts m e
  let k := r.magnitude
  (((List.range 17).findSome? fun (n : Nat) => r.onGrid (k - (n + 1))).getD ⟨0, 0⟩).trim

structure DecimalStyle where
  /-- The least and greatest decimal exponent of the first digit that is written positionally. -/
  positionalFrom : Int
  positionalTo : Int
  /-- The least number of digits of an exponent. -/
  exponentWidth : Nat
  notANumber : String
  infinity : String

def zerosText (n : Nat) : String :=
  String.ofList (List.replicate n '0')

/-- The digits of a decimal with the point set so that the first of them has decimal exponent
`place`; a whole number keeps `.0`. -/
def positional (digits : String) (place : Int) : String :=
  if place < 0 then "0." ++ zerosText ((-place).toNat - 1) ++ digits
  else
    let whole := place.toNat + 1
    if digits.length ≤ whole then digits ++ zerosText (whole - digits.length) ++ ".0"
    else
      String.ofList (digits.toList.take whole) ++ "." ++ String.ofList (digits.toList.drop whole)

def exponential (width : Nat) (digits : String) (place : Int) : String :=
  let head := String.ofList (digits.toList.take 1)
  let tail := String.ofList (digits.toList.drop 1)
  let point := if tail.isEmpty then "" else "."
  let size := toString place.natAbs
  let sign := if place < 0 then "-" else "+"
  head ++ point ++ tail ++ "e" ++ sign ++ zerosText (width - size.length) ++ size

def DecimalStyle.positive (style : DecimalStyle) (d : Decimal) : String :=
  let digits := toString d.digits
  let place : Int := d.exponent + digits.length - 1
  if style.positionalFrom ≤ place ∧ place ≤ style.positionalTo then positional digits place
  else exponential style.exponentWidth digits place

/-- The shortest text that reads back as the float. -/
def DecimalStyle.text (style : DecimalStyle) (x : Float) : String :=
  match parts x with
  | .notANumber => style.notANumber
  | .infinite negative => (if negative then "-" else "") ++ style.infinity
  | .finite negative m e =>
    (if negative then "-" else "") ++
      (if m = 0 then "0.0" else style.positive (shortest m e))

/-- Floats in messages and reports: an exponent is written from `1e+16` up and below `0.0001`. -/
def DecimalStyle.report : DecimalStyle where
  positionalFrom := -4
  positionalTo := 15
  exponentWidth := 2
  notANumber := "nan"
  infinity := "inf"

/-- `n / d` rounded to the nearest whole number, a half to the even one. -/
def roundQuotient (n d : Nat) : Nat :=
  let q := n / d
  if d < 2 * (n % d) ∨ (d = 2 * (n % d) ∧ q % 2 = 1) then q + 1 else q

/-- A float with exactly `places` digits after the point, correctly rounded. -/
def fixed (places : Nat) (x : Float) : String :=
  match parts x with
  | .notANumber => "nan"
  | .infinite negative => if negative then "-inf" else "inf"
  | .finite negative m e =>
    let n := m * Nat.pow 10 places
    let rounded := if 0 ≤ e then n <<< e.toNat else roundQuotient n (1 <<< (-e).toNat)
    let digits := toString rounded
    let padded := zerosText (places + 1 - digits.length) ++ digits
    let whole := padded.length - places
    (if negative then "-" else "") ++ String.ofList (padded.toList.take whole) ++ "." ++
      String.ofList (padded.toList.drop whole)

end SoundAtlas.Number
