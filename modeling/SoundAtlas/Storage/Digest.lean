import SoundAtlas.Text.Quoted

/-!
The digest by which a damaged file is told from the one that was written: eight words, mixed with
one block of sixteen words after the other.
-/

namespace SoundAtlas.Digest

structure Words where
  a : UInt32
  b : UInt32
  c : UInt32
  d : UInt32
  e : UInt32
  f : UInt32
  g : UInt32
  h : UInt32
deriving DecidableEq

def start : Words :=
  ⟨0x6a09e667, 0xbb67ae85, 0x3c6ef372, 0xa54ff53a, 0x510e527f, 0x9b05688c, 0x1f83d9ab, 0x5be0cd19⟩

def rounds : List UInt32 :=
  [0x428a2f98, 0x71374491, 0xb5c0fbcf, 0xe9b5dba5, 0x3956c25b, 0x59f111f1, 0x923f82a4, 0xab1c5ed5,
   0xd807aa98, 0x12835b01, 0x243185be, 0x550c7dc3, 0x72be5d74, 0x80deb1fe, 0x9bdc06a7,
   0xc19bf174, 0xe49b69c1, 0xefbe4786, 0x0fc19dc6, 0x240ca1cc, 0x2de92c6f, 0x4a7484aa,
   0x5cb0a9dc, 0x76f988da, 0x983e5152, 0xa831c66d, 0xb00327c8, 0xbf597fc7, 0xc6e00bf3,
   0xd5a79147, 0x06ca6351, 0x14292967, 0x27b70a85, 0x2e1b2138, 0x4d2c6dfc, 0x53380d13,
   0x650a7354, 0x766a0abb, 0x81c2c92e, 0x92722c85, 0xa2bfe8a1, 0xa81a664b, 0xc24b8b70,
   0xc76c51a3, 0xd192e819, 0xd6990624, 0xf40e3585, 0x106aa070, 0x19a4c116, 0x1e376c08,
   0x2748774c, 0x34b0bcb5, 0x391c0cb3, 0x4ed8aa4a, 0x5b9cca4f, 0x682e6ff3, 0x748f82ee,
   0x78a5636f, 0x84c87814, 0x8cc70208, 0x90befffa, 0xa4506ceb, 0xbef9a3f7, 0xc67178f2]

def turn (x n : UInt32) : UInt32 :=
  (x >>> n) ||| (x <<< (32 - n))

def round (s : Words) (k w : UInt32) : Words :=
  let high := turn s.e 6 ^^^ turn s.e 11 ^^^ turn s.e 25
  let chosen := (s.e &&& s.f) ^^^ ((~~~ s.e) &&& s.g)
  let first := s.h + high + chosen + k + w
  let low := turn s.a 2 ^^^ turn s.a 13 ^^^ turn s.a 22
  let most := (s.a &&& s.b) ^^^ (s.a &&& s.c) ^^^ (s.b &&& s.c)
  ⟨first + (low + most), s.a, s.b, s.c, s.d + first, s.e, s.f, s.g⟩

def nextWord (ws : List UInt32) : UInt32 :=
  let w (i : Nat) : UInt32 := ws.getD i 0
  let early := turn (w 1) 7 ^^^ turn (w 1) 18 ^^^ (w 1 >>> 3)
  let late := turn (w 14) 17 ^^^ turn (w 14) 19 ^^^ (w 14 >>> 10)
  late + w 9 + early + w 0

/-- All rounds of a block; `ws` are the words of this round and of the fifteen after it. -/
def runRounds (s : Words) (ws : List UInt32) : List UInt32 → Words
  | [] => s
  | k :: ks => runRounds (round s k (ws.getD 0 0)) (ws.drop 1 ++ [nextWord ws]) ks

def mix (s : Words) (block : List UInt32) : Words :=
  let t := runRounds s block rounds
  ⟨s.a + t.a, s.b + t.b, s.c + t.c, s.d + t.d, s.e + t.e, s.f + t.f, s.g + t.g, s.h + t.h⟩

def wordsOf : List UInt8 → List UInt32
  | p :: q :: r :: s :: rest =>
    ((p.toUInt32 <<< 24) ||| (q.toUInt32 <<< 16) ||| (r.toUInt32 <<< 8) ||| s.toUInt32) ::
      wordsOf rest
  | _ => []

/-- The bytes filled up to whole blocks: a mark, zeros, and the number of bits. -/
def padded (bytes : List UInt8) : List UInt8 :=
  let n := bytes.length
  let zeros := (119 - n % 64) % 64
  bytes ++ 0x80 :: List.replicate zeros 0 ++
    (List.range 8).reverse.map fun (i : Nat) => UInt8.ofNat ((8 * n) >>> (8 * i))

def mixAll : (n : Nat) → Words → List UInt32 → Words
  | 0, s, _ => s
  | n + 1, s, ws => mixAll n (mix s (ws.take 16)) (ws.drop 16)

/-- The digest of bytes as sixty-four hexadecimal digits. -/
def text (bytes : ByteArray) : String :=
  let ws := wordsOf (padded bytes.toList)
  let s := mixAll (ws.length / 16) start ws
  String.ofList ([s.a, s.b, s.c, s.d, s.e, s.f, s.g, s.h].flatMap fun w =>
    Text.hexDigits 8 w.toNat)

end SoundAtlas.Digest
