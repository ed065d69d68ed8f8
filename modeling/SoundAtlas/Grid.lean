import Std.Data.ExtTreeSet

/-!
Positions, and rectangular grids of cells. The cells of a grid are numbered row by row, so the cell
of `(x, y)` has the number `y * width + x`.
-/

namespace SoundAtlas

structure Position where
  x : Int
  y : Int
deriving DecidableEq, Repr

namespace Position

/-- Positions are ordered by column, then by row. -/
instance : Ord Position :=
  ⟨compareLex (compareOn Position.x) (compareOn Position.y)⟩

instance : Std.TransOrd Position :=
  inferInstanceAs (Std.TransCmp (compareLex (compareOn Position.x) (compareOn Position.y)))

instance : Std.LawfulEqOrd Position where
  eq_of_compare {a b} h := by
    obtain ⟨hx, hy⟩ := Ordering.then_eq_eq.1 h
    have hx : a.x = b.x := Std.LawfulEqOrd.eq_of_compare hx
    have hy : a.y = b.y := Std.LawfulEqOrd.eq_of_compare hy
    cases a
    cases b
    simp_all

def text (p : Position) : String :=
  "(" ++ toString p.x ++ ", " ++ toString p.y ++ ")"

/-- The four positions beside a position: above, left, right, below. -/
def around (p : Position) : List Position :=
  [⟨p.x, p.y - 1⟩, ⟨p.x - 1, p.y⟩, ⟨p.x + 1, p.y⟩, ⟨p.x, p.y + 1⟩]

end Position

abbrev PositionSet := Std.ExtTreeSet Position

structure Grid where
  width : Nat
  height : Nat
deriving DecidableEq, Repr

namespace Grid

def size (g : Grid) : Nat :=
  g.width * g.height

abbrev Cell (g : Grid) := Fin g.size

def text (g : Grid) : String :=
  toString g.width ++ "x" ++ toString g.height

def Contains (g : Grid) (p : Position) : Prop :=
  (0 ≤ p.x ∧ p.x < g.width) ∧ (0 ≤ p.y ∧ p.y < g.height)

instance (g : Grid) (p : Position) : Decidable (g.Contains p) :=
  inferInstanceAs (Decidable (_ ∧ _))

theorem number_lt {g : Grid} {x y : Nat} (hx : x < g.width) (hy : y < g.height) :
    y * g.width + x < g.size := by
  calc y * g.width + x < y * g.width + g.width := by omega
    _ = (y + 1) * g.width := by rw [Nat.add_mul, Nat.one_mul]
    _ ≤ g.height * g.width := Nat.mul_le_mul_right _ hy
    _ = g.size := Nat.mul_comm ..

def cellAt (g : Grid) (x : Fin g.width) (y : Fin g.height) : g.Cell :=
  ⟨y * g.width + x, number_lt x.isLt y.isLt⟩

def cell? (g : Grid) (p : Position) : Option g.Cell :=
  if h : g.Contains p then
    some (g.cellAt ⟨p.x.toNat, by unfold Contains at h; omega⟩
      ⟨p.y.toNat, by unfold Contains at h; omega⟩)
  else none

def position (g : Grid) (c : g.Cell) : Position :=
  ⟨(c.val % g.width : Nat), (c.val / g.width : Nat)⟩

def cells (g : Grid) : List g.Cell :=
  List.finRange g.size

def positions (g : Grid) : List Position :=
  (List.range g.height).flatMap fun y =>
    (List.range g.width).map fun x => ⟨(x : Nat), (y : Nat)⟩

def neighbors (g : Grid) (p : Position) : List Position :=
  p.around.filter fun q => decide (g.Contains q)

def cellsAround (g : Grid) (p : Position) : List g.Cell :=
  p.around.filterMap g.cell?

def cellsBeside (g : Grid) (c : g.Cell) : List g.Cell :=
  g.cellsAround (g.position c)

def rows (g : Grid) : List (List g.Cell) :=
  (List.finRange g.height).map fun y => (List.finRange g.width).map fun x => g.cellAt x y

def pairsAcross (g : Grid) : List (g.Cell × g.Cell) :=
  g.rows.flatMap fun row => row.tail.zip row

def pairsDown (g : Grid) : List (g.Cell × g.Cell) :=
  (g.rows.tail.zip g.rows).flatMap fun rows => rows.1.zip rows.2

def pairs (g : Grid) : List (g.Cell × g.Cell) :=
  g.pairsAcross ++ g.pairsDown

/-- How far apart two cells lie in a straight line, squared. -/
def squareDistance (g : Grid) (a b : g.Cell) : Int :=
  let p := g.position a
  let q := g.position b
  (p.x - q.x) * (p.x - q.x) + (p.y - q.y) * (p.y - q.y)

end Grid

end SoundAtlas
