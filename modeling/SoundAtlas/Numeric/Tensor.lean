import SoundAtlas.Json.Basic
import SoundAtlas.Number.Quotient
import SoundAtlas.Number.Reading

/-!
Rectangular arrays of any rank: a shape and the entries in row-major order. The entries are floats,
or the words of 64 bits in which floats are stored.
-/

namespace SoundAtlas

/-- A rectangular array, of floats unless other entries are named. -/
structure Tensor (α : Type := Float) where
  /-- The extent along each axis. -/
  shape : List Nat
  /-- The entries, the last index running fastest. -/
  entries : List α
  length_entries : entries.length = shape.foldr (· * ·) 1

namespace Tensor

/-- Why nested values are no rectangular array of floats. -/
inductive Error where
  /-- The lists differ in length or depth, or are nested too deeply. -/
  | ragged
  /-- A text writes no number. -/
  | badNumber
  /-- A value is no number at all. -/
  | notNumber
  /-- A whole number is beyond the range of floats. -/
  | tooLarge
deriving DecidableEq, Repr

def maxRank : Nat := 64

variable {α : Type}

def ofEntries (shape : List Nat) (entries : List α) : Except Error (Tensor α) :=
  if h : entries.length = shape.foldr (· * ·) 1 then .ok ⟨shape, entries, h⟩
  else .error .ragged

def ofList (xs : List α) : Tensor α where
  shape := [xs.length]
  entries := xs
  length_entries := by simp

def map {β : Type} (f : α → β) (t : Tensor α) : Tensor β where
  shape := t.shape
  entries := t.entries.map f
  length_entries := by simpa using t.length_entries

def words (t : Tensor) : Tensor UInt64 :=
  t.map Float.toBits

/-- Rows of one length, one below the other. No rows make an empty list. -/
def ofRows (rows : List (List Float)) : Except Error Tensor :=
  match rows with
  | [] => .ok (ofList [])
  | r :: rs =>
    if rs.all (·.length == r.length) then ofEntries [rows.length, r.length] rows.flatten
    else .error .ragged

/-- Cuts a list into pieces of `width` entries, `n` of them. -/
def chunks (width : Nat) : Nat → List α → List (List α)
  | 0, _ => []
  | n + 1, xs => xs.take width :: chunks width n (xs.drop width)

/-- The rows of an array whose entries are cut into rows of the last extent. -/
def rows (t : Tensor) : List (List Float) :=
  match t.shape with
  | [n, m] => chunks m n t.entries
  | _ => [t.entries]

theorem entry_lt {n m i j : Nat} (hi : i < n) (hj : j < m) : i * m + j < n * m := by
  calc i * m + j < i * m + m := by omega
    _ = (i + 1) * m := by rw [Nat.add_mul, Nat.one_mul]
    _ ≤ n * m := Nat.mul_le_mul_right _ hi

def vector? (t : Tensor α) (n : Nat) : Option (Vector α n) :=
  if h : t.shape = [n] then
    some ⟨t.entries.toArray, by simpa [h] using t.length_entries⟩
  else none

/-- The array as `n` rows of `m` entries, if that is its shape. -/
def matrix? (t : Tensor α) (n m : Nat) : Option (Vector (Vector α m) n) :=
  if h : t.shape = [n, m] then
    let flat : Vector α (n * m) := ⟨t.entries.toArray, by simpa [h] using t.length_entries⟩
    some (Vector.ofFn fun i => Vector.ofFn fun j =>
      flat.get ⟨i * m + j, entry_lt i.isLt j.isLt⟩)
  else none

def shapeText : List Nat → String
  | [n] => "(" ++ toString n ++ ",)"
  | ns => "(" ++ ", ".intercalate (ns.map toString) ++ ")"

/-- The float of a single value: a number, one or zero for a truth value, no number for `null`, or
what a text writes. -/
def floatOfJson : Json → Except Error Float
  | .null => .ok (0.0 / 0.0)
  | .bool b => .ok (if b then 1.0 else 0.0)
  | .int n =>
    match Number.floatOfInt? n with
    | some x => .ok x
    | none => .error .tooLarge
  | .float x => .ok x
  | .str (.chars s) =>
    match Number.readReal? s with
    | some x => .ok x
    | none => .error .badNumber
  | .str (.broken ..) => .error .badNumber
  | _ => .error .notNumber

mutual

/-- The shape of nested lists, if they are rectangular. Anything but a list counts as one entry. -/
def shapeOf : Json → Option (List Nat)
  | .arr [] => some [0]
  | .arr (v :: vs) =>
    match shapeOf v with
    | none => none
    | some s => if allHaveShape s vs then some ((vs.length + 1) :: s) else none
  | _ => some []

def allHaveShape (s : List Nat) : List Json → Bool
  | [] => true
  | v :: vs => decide (shapeOf v = some s) && allHaveShape s vs

end

mutual

/-- What stands at the ends of nested lists, from left to right. -/
def leaves : Json → List Json
  | .arr vs => leavesOf vs
  | v => [v]

def leavesOf : List Json → List Json
  | [] => []
  | v :: vs => leaves v ++ leavesOf vs

end

/-- The array that nested lists of numbers write. -/
def ofJson (v : Json) : Except Error Tensor :=
  match shapeOf v with
  | none => .error .ragged
  | some shape =>
    if maxRank < shape.length then .error .ragged
    else
      match (leaves v).mapM floatOfJson with
      | .ok entries => ofEntries shape entries
      | .error e => .error e

end Tensor

end SoundAtlas
