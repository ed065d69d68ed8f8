import SoundAtlas.Storage.Archive

/-!
A format of archives, the one that the program keeps its own in. In front stand a signature, a mark,
the number of arrays, and for each its name, its shape and its entries; at the end stands a closing
record. Whether there are arrays to be read, the last closing record tells: an archive to which
something has been appended is still one, unless that brings a closing record of its own.
-/

namespace SoundAtlas.Archive

/-! ### Writing -/

def signature : List UInt8 :=
  [0x50, 0x4b, 0x03, 0x04]

/-- The byte after the signature. It occurs in no text, so a text that begins with the signature has
no arrays. -/
def mark : UInt8 :=
  0xff

def closingSignature : List UInt8 :=
  [0x50, 0x4b, 0x05, 0x06]

def closingSize : Nat := 22

def allOnes : Nat := 0xffffffff

/-- A number in digits of seven bits, the lowest first; all but the last are marked. -/
def putNat (n : Nat) : List UInt8 :=
  if n < 128 then [UInt8.ofNat n] else UInt8.ofNat (n % 128 + 128) :: putNat (n / 128)

def putBytes : (width : Nat) → Nat → List UInt8
  | 0, _ => []
  | width + 1, n => UInt8.ofNat (n % 256) :: putBytes width (n / 256)

def putWord (x : UInt64) : List UInt8 :=
  putBytes 8 x.toNat

def putName (s : String) : List UInt8 :=
  putNat s.toUTF8.size ++ s.toUTF8.data.toList

def putTensor (t : Tensor UInt64) : List UInt8 :=
  putNat t.shape.length ++ t.shape.flatMap putNat ++ t.entries.flatMap putWord

def front (a : Archive) : List UInt8 :=
  signature ++ mark :: putNat a.length ++ a.flatMap fun e => putName e.1 ++ putTensor e.2

/-- The closing record of an archive with arrays. Its fields are zero but for the size of the
directory, which is not given; the last two bytes are the length of a comment. -/
def closing : List UInt8 :=
  closingSignature ++ putBytes 8 0 ++ putBytes 4 allOnes ++ putBytes 6 0

def write (a : Archive) : ByteArray :=
  ⟨(front a ++ closing).toArray⟩

/-! ### Reading -/

def takeNat : List UInt8 → Option (Nat × List UInt8)
  | [] => none
  | b :: bs =>
    if b.toNat < 128 then some (b.toNat, bs)
    else (takeNat bs).map fun r => (b.toNat - 128 + 128 * r.1, r.2)

def takeBytes : (width : Nat) → List UInt8 → Option (Nat × List UInt8)
  | 0, bs => some (0, bs)
  | _ + 1, [] => none
  | width + 1, b :: bs => (takeBytes width bs).map fun r => (b.toNat + 256 * r.1, r.2)

def takeWord (bs : List UInt8) : Option (UInt64 × List UInt8) :=
  (takeBytes 8 bs).map fun r => (UInt64.ofNat r.1, r.2)

/-- Takes `n` things of a kind off the front. -/
def takeMany {α : Type} (take : List UInt8 → Option (α × List UInt8)) :
    (n : Nat) → List UInt8 → Option (List α × List UInt8)
  | 0, bs => some ([], bs)
  | n + 1, bs => do
    let (x, bs) ← take bs
    let (xs, bs) ← takeMany take n bs
    return (x :: xs, bs)

def takeName (bs : List UInt8) : Option (String × List UInt8) := do
  let (n, bs) ← takeNat bs
  if bs.length < n then none
  else
    let s ← String.fromUTF8? ⟨(bs.take n).toArray⟩
    return (s, bs.drop n)

def takeTensor (bs : List UInt8) : Option (Tensor UInt64 × List UInt8) := do
  let (rank, bs) ← takeNat bs
  let (shape, bs) ← takeMany takeNat rank bs
  let (entries, bs) ← takeMany takeWord (shape.foldr (· * ·) 1) bs
  match Tensor.ofEntries shape entries with
  | .ok t => return (t, bs)
  | .error _ => none

def takeEntry (bs : List UInt8) : Option ((String × Tensor UInt64) × List UInt8) := do
  let (name, bs) ← takeName bs
  let (t, bs) ← takeTensor bs
  return ((name, t), bs)

def readArrays (bs : List UInt8) : Option Archive :=
  match bs.drop signature.length with
  | [] => none
  | b :: bs =>
    if b ≠ mark then none
    else do
      let (n, bs) ← takeNat bs
      let (a, _) ← takeMany takeEntry n bs
      return a

/-- The number in the bytes from a place on, the lowest first; missing bytes are zero. -/
def numberAt (place width : Nat) (bs : List UInt8) : Nat :=
  ((bs.drop place).take width).foldr (fun b n => b.toNat + 256 * n) 0

/-- Goes back from the end of bytes, `steps` of them at most, to where a closing record begins. The
bytes that have not been passed are in reverse order. -/
def findClosing : (steps : Nat) → (ahead passed : List UInt8) → Option (List UInt8 × List UInt8)
  | 0, _, _ => none
  | steps + 1, ahead, passed =>
    if closingSignature.isPrefixOf passed then some (ahead, passed)
    else
      match ahead with
      | [] => none
      | b :: ahead => findClosing steps ahead (b :: passed)

def longestComment : Nat := 0x10000

/-- The closing record of bytes in reverse order, with what stands before it, which stays in reverse
order. One without a comment at the very end goes before the last one that may have a comment. -/
def closingOf (reversed : List UInt8) : Option (List UInt8 × List UInt8) :=
  let last := (reversed.take closingSize).reverse
  if last.length = closingSize ∧ closingSignature.isPrefixOf last ∧ numberAt 20 2 last = 0 then
    some (reversed.drop closingSize, last)
  else
    match findClosing (longestComment + closingSize + 1) reversed [] with
    | none => none
    | some (ahead, record) => if record.length < closingSize then none else some (ahead, record)

/-- The bytes that the locator of a wide closing record begins with. -/
def locatorSignature : List UInt8 :=
  [0x50, 0x4b, 0x06, 0x07]

def wideSignature : List UInt8 :=
  [0x50, 0x4b, 0x06, 0x06]

def wideSize : Nat := 56

def locatorSize : Nat := 20

/-- The size of the directory as a wide closing record gives it, which stands with its locator
before the closing record and goes before it; without them it is the given size. A locator for more
than one disk, or one without room for a record before it, is damage. -/
def wideSizeOr (size : Nat) (reversed : List UInt8) : Option Nat :=
  let locator := (reversed.take locatorSize).reverse
  let wide := ((reversed.drop locatorSize).take wideSize).reverse
  if !locatorSignature.isPrefixOf locator then some size
  else if numberAt 4 4 locator ≠ 0 ∨ 1 < numberAt 16 4 locator ∨ wide.length < wideSize then none
  else if wideSignature.isPrefixOf wide then some (numberAt 40 8 wide)
  else some size

/-- The archive that ends in a closing record: with the arrays in front if the size of the directory
is not given, and without arrays if it is zero. A directory of any other size is damage. -/
def readClosed (bs ahead record : List UInt8) : Option Archive :=
  let size := numberAt 12 4 record
  if size = allOnes then readArrays bs
  else
    match wideSizeOr size ahead with
    | some 0 => some []
    | _ => none

def read (bytes : ByteArray) : Except Error Archive :=
  let bs := bytes.data.toList
  if bs.isEmpty then .error .empty
  else if !signature.isPrefixOf bs && !closingSignature.isPrefixOf bs then .error .unknown
  else
    match closingOf bs.reverse with
    | none => .error .damaged
    | some (ahead, record) =>
      match readClosed bs ahead record with
      | some a => .ok a
      | none => .error .damaged

def Format.standard : Format :=
  ⟨Archive.write, Archive.read⟩

end SoundAtlas.Archive
