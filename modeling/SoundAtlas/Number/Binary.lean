/-!
Floats taken apart: a finite one is a sign, a natural number and a power of two. As stored, a float
is a word of 64 bits; of the words that stand for no number each is stored as it is.
-/

namespace SoundAtlas.Number

inductive Parts where
  | notANumber
  | infinite (negative : Bool)
  /-- `mantissa * 2 ^ exponent`, negated if `negative`. -/
  | finite (negative : Bool) (mantissa : Nat) (exponent : Int)
deriving DecidableEq, Repr

def leadingOne : Nat := 0x10000000000000

/-- The parts of the float with the given bits: one of sign, eleven of exponent, the rest of
mantissa, whose leading one is implicit unless the exponent field is zero. -/
def Parts.ofBits (bits : Nat) : Parts :=
  let negative := (bits >>> 63) % 2 == 1
  let field : Nat := (bits >>> 52) % 2048
  let fraction : Nat := bits % leadingOne
  if field = 2047 then
    if fraction = 0 then .infinite negative else .notANumber
  else if field = 0 then .finite negative fraction (-1074)
  else .finite negative (leadingOne + fraction) ((field : Int) - 1075)

def parts (x : Float) : Parts :=
  .ofBits x.toBits.toNat

/-- `m * 2 ^ e` without its fractional part. -/
def scaleDown (m : Nat) (e : Int) : Nat :=
  if 0 ≤ e then m <<< e.toNat else m >>> (-e).toNat

def signed (negative : Bool) (n : Nat) : Int :=
  if negative then -(n : Int) else n

/-! ### Stored floats -/

def floats {d : Nat} (v : Vector UInt64 d) : Vector Float d :=
  v.map Float.ofBits

def bits {d : Nat} (v : Vector Float d) : Vector UInt64 d :=
  v.map Float.toBits

end SoundAtlas.Number
