import SoundAtlas.Random.Seed

/-!
The generator of initial reference vectors and of sample orders: a congruential sequence of 128 bit
states whose halves are joined and rotated.
-/

namespace SoundAtlas.Random

/-- A generator; `half` is the unused half of the last number that was drawn for its half. -/
structure Pcg where
  state : BitVec 128
  increment : BitVec 128
  half : Option UInt32
deriving DecidableEq, Repr

namespace Pcg

def advance (g : Pcg) : Pcg :=
  { g with state := g.state * 0x2360ed051fc65da44385df649fccf645#128 + g.increment }

def ofSeed (seed : Nat) : Pcg :=
  let word (i : Nat) : Nat := ((seedWords seed).getD i 0).toNat
  let wide (i : Nat) : Nat := word (2 * i) + (word (2 * i + 1) <<< 32)
  let start : BitVec 128 := BitVec.ofNat 128 ((wide 0 <<< 64) + wide 1)
  let step : BitVec 128 := BitVec.ofNat 128 (2 * ((wide 2 <<< 64) + wide 3) + 1)
  let g := advance { state := 0, increment := step, half := none }
  advance { g with state := g.state + start }

def next64 (g : Pcg) : UInt64 × Pcg :=
  let g := g.advance
  let joined : BitVec 64 := (g.state >>> 64).setWidth 64 ^^^ g.state.setWidth 64
  (UInt64.ofBitVec (joined.rotateRight (g.state >>> 122).toNat), g)

/-- The next thirty-two bits: a number gives its low half first and its high half the next time. -/
def next32 (g : Pcg) : UInt32 × Pcg :=
  match g.half with
  | some v => (v, { g with half := none })
  | none =>
    let (v, g) := g.next64
    (v.toUInt32, { g with half := some (v >>> 32).toUInt32 })

/-- The next number of the unit interval, a multiple of `2 ^ -53`. -/
def nextUnit (g : Pcg) : Float × Pcg :=
  let (v, g) := g.next64
  ((v >>> 11).toFloat * Float.scaleB 1.0 (-53), g)

/-- The next number up to `bound`: draws under the mask of its bits until one is not above it. After
`fuel` draws, which in practice never happens, the last one is reduced instead. -/
def nextUpTo (bound : Nat) : Nat → Pcg → Nat × Pcg
  | 0, g =>
    let (v, g) := g.next32
    (v.toNat % (bound + 1), g)
  | fuel + 1, g =>
    let (v, g) := g.next32
    let masked := v.toNat % (2 <<< bound.log2)
    if masked ≤ bound then (masked, g) else nextUpTo bound fuel g

theorem nextUpTo_le (bound fuel : Nat) (g : Pcg) : (nextUpTo bound fuel g).1 ≤ bound := by
  induction fuel generalizing g with
  | zero => simp only [nextUpTo]; exact Nat.le_of_lt_succ (Nat.mod_lt _ (by omega))
  | succ fuel ih => simp only [nextUpTo]; split <;> simp_all

/-- Swaps each place from `i` down to one with a random place not above it. -/
def shuffleFrom {n : Nat} : (i : Nat) → i < n → Vector (Fin n) n → Pcg → Vector (Fin n) n × Pcg
  | 0, _, v, g => (v, g)
  | i + 1, hi, v, g =>
    let drawn := nextUpTo (i + 1) 1000 g
    have hj : drawn.1 < n := Nat.lt_of_le_of_lt (nextUpTo_le ..) hi
    shuffleFrom i (by omega) (v.swap (i + 1) drawn.1 hi hj) drawn.2

def permutation (n : Nat) (g : Pcg) : List (Fin n) × Pcg :=
  if h : 0 < n then
    let shuffled := shuffleFrom (n - 1) (by omega) (Vector.ofFn id) g
    (shuffled.1.toList, shuffled.2)
  else ([], g)

end Pcg

class Source (γ : Type) where
  /-- The next number of the unit interval. -/
  unit : γ → Float × γ
  /-- The numbers below `n` in some order. -/
  permutation : (n : Nat) → γ → List (Fin n) × γ

/-- As many draws as a vector has places, the first place first. -/
def fill {α γ : Type} (draw : γ → α × γ) : (n : Nat) → γ → Vector α n × γ
  | 0, g => (#v[], g)
  | n + 1, g =>
    let filled := fill draw n g
    let drawn := draw filled.2
    (filled.1.push drawn.1, drawn.2)

instance : Source Pcg where
  unit := Pcg.nextUnit
  permutation := Pcg.permutation

end SoundAtlas.Random
