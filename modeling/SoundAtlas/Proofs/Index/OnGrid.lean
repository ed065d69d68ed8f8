import SoundAtlas.Index.EntityIndex
import SoundAtlas.Proofs.Grid.Adjacency

/-!
Indices whose entities lie on a grid. On such an index every cell of the grid can be looked up, and
adding entities at positions on the grid leads to no other.
-/

namespace SoundAtlas.EntityIndex

/-- The index has the extent of a grid, and the positions of all its entities lie on it. -/
structure OnGrid (ix : EntityIndex) (g : Grid) : Prop where
  width : ix.width = g.width
  size : ix.size = g.size
  places : ∀ entity, ∀ p ∈ ix.positionsOf entity, g.Contains p

variable {ix : EntityIndex} {g : Grid}

lemma number_position (c : g.Cell) :
    (g.position c).y * (g.width : Int) + (g.position c).x = (c.val : Int) := by
  have h := congrArg Int.ofNat (Nat.div_add_mod' c.val g.width)
  simpa [Grid.position] using h

lemma OnGrid.entitiesAt? (h : ix.OnGrid g) (c : g.Cell) :
    ∃ entities, ix.entitiesAt? (g.position c) = some entities := by
  have hlt : (c.val : Int) < ix.size := by
    rw [h.size]
    exact Int.ofNat_lt.2 c.isLt
  unfold EntityIndex.entitiesAt? EntityIndex.cell? slot?
  rw [h.width, number_position, dif_pos ⟨Int.natCast_nonneg _, hlt⟩]
  exact ⟨_, rfl⟩

lemma positionsOf_empty (width height entity : Int) :
    (empty width height).positionsOf entity = ∅ := by
  simp [positionsOf, empty]

lemma onGrid_empty (g : Grid) : (empty g.width g.height).OnGrid g where
  width := rfl
  size := by
    simp only [empty, Grid.size, ← Int.natCast_mul, Int.toNat_natCast]
  places entity p hp := by
    rw [positionsOf_empty] at hp
    simp at hp

lemma positionsOf_notePlace (entity other : Int) (p : Position) :
    (ix.notePlace entity p).positionsOf other =
      if entity = other then (ix.positionsOf entity).insert p else ix.positionsOf other := by
  simp only [notePlace, positionsOf, Std.ExtTreeMap.getD_insert]
  simp

lemma OnGrid.notePlace (h : ix.OnGrid g) {p : Position} (hp : g.Contains p) (entity : Int) :
    (ix.notePlace entity p).OnGrid g where
  width := h.width
  size := h.size
  places other r hr := by
    rw [positionsOf_notePlace] at hr
    split at hr
    · rcases Std.ExtTreeSet.mem_insert.1 hr with he | hr
      · rwa [← Std.LawfulEqOrd.eq_of_compare he]
      · exact h.places _ _ hr
    · exact h.places _ _ hr

lemma OnGrid.noteCell (h : ix.OnGrid g) (entity : Int) (c : Fin ix.size) :
    (ix.noteCell entity c).OnGrid g :=
  ⟨h.width, h.size, h.places⟩

/-- **An entity added at a position on the grid leaves the index on the grid.** -/
lemma OnGrid.add (h : ix.OnGrid g) {p : Position} (hp : g.Contains p) (entity : Int) :
    (ix.add entity p).2.OnGrid g := by
  unfold EntityIndex.add
  split
  · exact (h.noteCell entity _).notePlace hp entity
  · exact h.notePlace hp entity

end SoundAtlas.EntityIndex
