import Std.Data.ExtTreeMap
import SoundAtlas.Grid

/-!
Indices of entities by position: the positions of each entity, and the entities of each cell. A
position is turned into the number of a cell without a look at the extent of the grid, and a
negative number counts from the last cell.
-/

namespace SoundAtlas

structure EntityIndex where
  width : Int
  /-- The number of cells. -/
  size : Nat
  places : Std.ExtTreeMap Int PositionSet
  cells : Vector (Std.ExtTreeSet Int) size

namespace EntityIndex

/-- The index of no entities. The product of the sides is the number of cells. -/
def empty (width height : Int) : EntityIndex where
  width := width
  size := (width * height).toNat
  places := ∅
  cells := Vector.replicate _ ∅

/-- The place of a number in a row of `size` cells; a negative number counts from the end. -/
def slot? (size : Nat) (n : Int) : Option (Fin size) :=
  if h : 0 ≤ n ∧ n < size then some ⟨n.toNat, by omega⟩
  else if h : n < 0 ∧ 0 ≤ n + size then some ⟨(n + size).toNat, by omega⟩
  else none

def cell? (ix : EntityIndex) (p : Position) : Option (Fin ix.size) :=
  slot? ix.size (p.y * ix.width + p.x)

def positionsOf (ix : EntityIndex) (entity : Int) : PositionSet :=
  ix.places.getD entity ∅

def entitiesAt? (ix : EntityIndex) (p : Position) : Option (Std.ExtTreeSet Int) :=
  (ix.cell? p).map ix.cells.get

def ids (ix : EntityIndex) : List Int :=
  ix.places.keys

def contains (ix : EntityIndex) (entity : Int) : Bool :=
  ix.places.contains entity

def count (ix : EntityIndex) : Nat :=
  ix.places.size

/-- Records the position of an entity, but not the entity in the cell. -/
def notePlace (ix : EntityIndex) (entity : Int) (p : Position) : EntityIndex :=
  { ix with places := ix.places.insert entity ((ix.positionsOf entity).insert p) }

/-- Records the entity in a cell, but not its position. -/
def noteCell (ix : EntityIndex) (entity : Int) (c : Fin ix.size) : EntityIndex :=
  { ix with cells := ix.cells.set c ((ix.cells.get c).insert entity) }

/-- Records that an entity occupies the cell of a position. The position is recorded first, and
stays if there is no such cell; the answer is whether there is one. -/
def add (ix : EntityIndex) (entity : Int) (p : Position) : Bool × EntityIndex :=
  match ix.cell? p with
  | some c => (true, (ix.noteCell entity c).notePlace entity p)
  | none => (false, ix.notePlace entity p)

def insert? (ix : EntityIndex) (entity : Int) (p : Position) : Option EntityIndex :=
  let added := ix.add entity p
  if added.1 then some added.2 else none

end EntityIndex

end SoundAtlas
