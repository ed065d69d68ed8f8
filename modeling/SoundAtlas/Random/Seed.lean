/-!
Seeds: a whole number of any size stretched, by repeated hashing, to the words that a generator
starts from.
-/

namespace SoundAtlas.Random

/-- The thirty-two bit words of a number, the lowest first; zero has one word. -/
def words (n : Nat) : List UInt32 :=
  if n < 0x100000000 then [UInt32.ofNat n]
  else UInt32.ofNat n :: words (n / 0x100000000)
termination_by n
decreasing_by omega

/-- Hashes a word under a running constant, which changes with each use. -/
def hashWord (h v : UInt32) : UInt32 × UInt32 :=
  let h' := h * 0x931e8875
  let v := (v ^^^ h) * h'
  (v ^^^ (v >>> 16), h')

def mixWords (x y : UInt32) : UInt32 :=
  let r := 0xca01f9dd * x - 0x4973f715 * y
  r ^^^ (r >>> 16)

/-- Four words of entropy and the running constant of the hash. -/
structure Pool where
  words : Vector UInt32 4
  constant : UInt32

def Pool.stir (p : Pool) (v : UInt32) (place : Fin 4) : Pool :=
  let hashed := hashWord p.constant v
  { words := p.words.set place (mixWords (p.words.get place) hashed.1)
    constant := hashed.2 }

/-- The pool of a seed: its first four words hashed, each place mixed into the others, then the
further words mixed into every place. -/
def Pool.ofSeed (seed : Nat) : Pool :=
  let entropy := Random.words seed
  let places : List (Fin 4) := [0, 1, 2, 3]
  let filled := places.foldl
    (fun (p : Pool) (i : Fin 4) =>
      let hashed := hashWord p.constant (entropy.getD i 0)
      { words := p.words.set i hashed.1, constant := hashed.2 })
    ⟨Vector.replicate 4 0, 0x43b0d7e5⟩
  let mixed := places.foldl
    (fun p (i : Fin 4) =>
      (places.filter (· ≠ i)).foldl (fun p j => p.stir (p.words.get i) j) p)
    filled
  (entropy.drop 4).foldl (fun p v => places.foldl (fun p j => p.stir v j) p) mixed

def Pool.output (p : Pool) : Nat → Nat → UInt32 → List UInt32
  | 0, _, _ => []
  | n + 1, i, g =>
    let g' := g * 0x58f38ded
    let v := (p.words.get (Fin.ofNat 4 i) ^^^ g) * g'
    (v ^^^ (v >>> 16)) :: p.output n (i + 1) g'

def seedWords (seed : Nat) : List UInt32 :=
  (Pool.ofSeed seed).output 8 0 0x8b51f9dd

end SoundAtlas.Random
