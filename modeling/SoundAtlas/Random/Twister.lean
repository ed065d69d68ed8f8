import SoundAtlas.Random.Seed

/-!
The generator of random evictions: a twisted feedback register of 624 words.
-/

namespace SoundAtlas.Random

/-- A generator: the register, and how many of its words have been given out. -/
structure Twister where
  register : Vector UInt32 624
  used : Nat
deriving DecidableEq

namespace Twister

def word (v : Vector UInt32 624) (i : Nat) : UInt32 :=
  v.get (Fin.ofNat 624 i)

def setWord (v : Vector UInt32 624) (i : Nat) (x : UInt32) : Vector UInt32 624 :=
  v.set (Fin.ofNat 624 i) x

def spread (v : Vector UInt32 624) (i : Nat) : UInt32 :=
  word v (i + 623) ^^^ (word v (i + 623) >>> 30)

def registerOf (seed : UInt32) : Vector UInt32 624 :=
  (List.range 623).foldl
    (fun v k => setWord v (k + 1) (1812433253 * spread v (k + 1) + UInt32.ofNat (k + 1)))
    (setWord (Vector.replicate 624 0) 0 seed)

/-- The place after `i`; past the end it is the second place, and the first takes the last word. -/
def wrap (v : Vector UInt32 624) (i : Nat) : Vector UInt32 624 × Nat :=
  if i + 1 < 624 then (v, i + 1) else (setWord v 0 (word v 623), 1)

/-- The register that a key of words sets up: one pass that adds the key, one that takes the places
away. -/
def registerOfKey (key : List UInt32) : Vector UInt32 624 :=
  let added := (List.range (max 624 key.length)).foldl
    (fun (s : Vector UInt32 624 × Nat) k =>
      let j := k % key.length
      let v := setWord s.1 s.2
        ((word s.1 s.2 ^^^ (spread s.1 s.2 * 1664525)) + key.getD j 0 + UInt32.ofNat j)
      wrap v s.2)
    (registerOf 19650218, 1)
  let taken := (List.range 623).foldl
    (fun (s : Vector UInt32 624 × Nat) _ =>
      let v := setWord s.1 s.2
        ((word s.1 s.2 ^^^ (spread s.1 s.2 * 1566083941)) - UInt32.ofNat s.2)
      wrap v s.2)
    added
  setWord taken.1 0 0x80000000

/-- The generator of a seed; its sign does not matter. -/
def ofSeed (seed : Int) : Twister where
  register := registerOfKey (words seed.natAbs)
  used := 624

/-- One word of the next register, from its neighbour and a word further on. -/
def twisted (v : Vector UInt32 624) (k : Nat) : UInt32 :=
  let y := (word v k &&& 0x80000000) ||| (word v (k + 1) &&& 0x7fffffff)
  word v (k + 397) ^^^ (y >>> 1) ^^^ (if y &&& 1 = 1 then 0x9908b0df else 0)

def refill (v : Vector UInt32 624) : Vector UInt32 624 :=
  (List.range 624).foldl (fun v k => setWord v k (twisted v k)) v

def temper (y : UInt32) : UInt32 :=
  let y := y ^^^ (y >>> 11)
  let y := y ^^^ ((y <<< 7) &&& 0x9d2c5680)
  let y := y ^^^ ((y <<< 15) &&& 0xefc60000)
  y ^^^ (y >>> 18)

def next32 (g : Twister) : UInt32 × Twister :=
  if g.used < 624 then (temper (word g.register g.used), { g with used := g.used + 1 })
  else
    let v := refill g.register
    (temper (word v 0), { register := v, used := 1 })

def bitLength (n : Nat) : Nat :=
  if n = 0 then 0 else n.log2 + 1

/-- The next number below `n`: draws of as many bits as `n` has until one is below it. After `fuel`
draws, which in practice never happens, the last one is reduced instead. -/
def nextBelow (n : Nat) : Nat → Twister → Nat × Twister
  | 0, g =>
    let (v, g) := g.next32
    (v.toNat % n, g)
  | fuel + 1, g =>
    let (v, g) := g.next32
    let drawn := v.toNat >>> (32 - bitLength n)
    if drawn < n then (drawn, g) else nextBelow n fuel g

theorem nextBelow_lt {n : Nat} (hn : 0 < n) (fuel : Nat) (g : Twister) :
    (nextBelow n fuel g).1 < n := by
  induction fuel generalizing g with
  | zero => simp only [nextBelow]; exact Nat.mod_lt _ hn
  | succ fuel ih => simp only [nextBelow]; split <;> simp_all

def below (n : Nat) (g : Twister) : Nat × Twister :=
  nextBelow n 1000 g

theorem below_lt {n : Nat} (hn : 0 < n) (g : Twister) : (g.below n).1 < n :=
  nextBelow_lt hn 1000 g

end Twister

end SoundAtlas.Random
