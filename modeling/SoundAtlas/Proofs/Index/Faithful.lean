import Mathlib
import SoundAtlas.Proofs.Index.OnGrid

/-!
Indices that say the same both ways. On a grid an entity is in the cell of a position if and only if
the position is one of the entity's, and only entities with a position are recorded. Such an index
is settled by the positions of its entities, so it does not matter in which order they came to it.
-/

namespace SoundAtlas

/-! ### Sets of positions -/

lemma PositionSet.mem_insert {ps : PositionSet} {p q : Position} :
    q ∈ ps.insert p ↔ q = p ∨ q ∈ ps := by
  rw [Std.ExtTreeSet.mem_insert, Std.LawfulEqOrd.compare_eq_iff_eq, eq_comm]

lemma PositionSet.mem_singleton {p q : Position} : q ∈ ({p} : PositionSet) ↔ q = p := by
  have hinsert : ({p} : PositionSet) = (∅ : PositionSet).insert p := rfl
  rw [hinsert, PositionSet.mem_insert]
  simp

lemma PositionSet.ext {ps qs : PositionSet} (h : ∀ p, p ∈ ps ↔ p ∈ qs) : ps = qs :=
  Std.ExtTreeSet.ext_mem h

section Rows

variable {ps : Std.ExtTreeMap Int PositionSet} {row : Int × PositionSet}

lemma PositionSet.mem_of_mem_toList (h : row ∈ ps.toList) : row.1 ∈ ps := by
  rw [← Std.ExtTreeMap.mem_keys, ← Std.ExtTreeMap.map_fst_toList_eq_keys]
  exact List.mem_map_of_mem h

lemma PositionSet.getD_of_mem_toList (h : row ∈ ps.toList) : ps.getD row.1 ∅ = row.2 := by
  rw [Std.ExtTreeMap.getD_eq_getD_getElem?, Std.ExtTreeMap.mem_toList_iff_getElem?_eq_some.1 h,
    Option.getD_some]

end Rows

namespace EntityIndex

variable {ix iy : EntityIndex} {g : Grid} {entity : Int} {p : Position}

/-- An index of a grid that says the same both ways. -/
structure Faithful (ix : EntityIndex) (g : Grid) : Prop extends ix.OnGrid g where
  /-- Every cell holds the entities that have its position. -/
  cells : ∀ p, g.Contains p → ∃ entities, ix.entitiesAt? p = some entities ∧
    ∀ entity, entity ∈ entities ↔ p ∈ ix.positionsOf entity
  /-- What has been recorded has a position. -/
  ids : ∀ entity, entity ∈ ix.ids ↔ ∃ p, p ∈ ix.positionsOf entity

/-! ### Cells by their numbers -/

lemma OnGrid.cell?_position (h : ix.OnGrid g) (c : g.Cell) :
    ix.cell? (g.position c) = some (Fin.cast h.size.symm c) := by
  have hlt : (c.val : Int) < ix.size := by
    rw [h.size]
    exact Int.ofNat_lt.2 c.isLt
  unfold EntityIndex.cell? slot?
  rw [h.width, number_position, dif_pos ⟨Int.natCast_nonneg _, hlt⟩]
  exact congrArg some (Fin.ext (Int.toNat_natCast _))

lemma OnGrid.cell?_inj (h : ix.OnGrid g) {p q : Position} (hp : g.Contains p) (hq : g.Contains q)
    (hpq : ix.cell? p = ix.cell? q) : p = q := by
  obtain ⟨c, rfl⟩ := Grid.exists_position hp
  obtain ⟨d, rfl⟩ := Grid.exists_position hq
  rw [h.cell?_position, h.cell?_position, Option.some.injEq] at hpq
  have hcd := congrArg Fin.val hpq
  rw [Fin.ext (a := c) (b := d) hcd]

lemma OnGrid.exists_cell (h : ix.OnGrid g) (hp : g.Contains p) : ∃ c, ix.cell? p = some c := by
  obtain ⟨c, rfl⟩ := Grid.exists_position hp
  exact ⟨_, h.cell?_position c⟩

/-! ### One entity more -/

lemma positionsOf_add (ix : EntityIndex) (entity other : Int) (p : Position) :
    (ix.add entity p).2.positionsOf other =
      if entity = other then (ix.positionsOf entity).insert p else ix.positionsOf other := by
  unfold add
  split
  · exact @positionsOf_notePlace (ix.noteCell entity _) entity other p
  · exact positionsOf_notePlace entity other p

lemma mem_positionsOf_add {other : Int} {q : Position} :
    q ∈ (ix.add entity p).2.positionsOf other ↔
      q ∈ ix.positionsOf other ∨ (other = entity ∧ q = p) := by
  rw [positionsOf_add]
  split
  · rename_i h
    subst h
    rw [PositionSet.mem_insert]
    tauto
  · rename_i h
    simp [Ne.symm h]

lemma mem_ids_add {other : Int} :
    other ∈ (ix.add entity p).2.ids ↔ other = entity ∨ other ∈ ix.ids := by
  unfold add ids
  split <;>
    simp only [notePlace, noteCell, Std.ExtTreeMap.mem_keys, Std.ExtTreeMap.mem_insert,
      Std.LawfulEqOrd.compare_eq_iff_eq, eq_comm (a := entity)]

lemma entitiesAt?_noteCell {c d : Fin ix.size} {q : Position} (hd : ix.cell? q = some d) :
    (ix.noteCell entity c).entitiesAt? q =
      some (if c = d then (ix.cells.get d).insert entity else ix.cells.get d) := by
  change (ix.cell? q).map (ix.cells.set c ((ix.cells.get c).insert entity)).get = _
  rw [hd]
  simp only [Option.map_some, Vector.get_eq_getElem, Vector.getElem_set, Fin.ext_iff]
  split
  · rename_i hcd
    simp only [hcd]
  · rfl

/-- The cell of an entity that is added gets the entity, and the others stay as they are. -/
lemma OnGrid.entitiesAt?_add (h : ix.OnGrid g) (hp : g.Contains p) (entity : Int) {q : Position}
    (hq : g.Contains q) {entities : Std.ExtTreeSet Int} (he : ix.entitiesAt? q = some entities) :
    (ix.add entity p).2.entitiesAt? q =
      some (if p = q then entities.insert entity else entities) := by
  obtain ⟨c, hc⟩ := h.exists_cell hp
  obtain ⟨d, hd⟩ := h.exists_cell hq
  have hpq : c = d ↔ p = q := by
    refine ⟨fun hcd => h.cell?_inj hp hq (by rw [hc, hd, hcd]), fun hpq => ?_⟩
    rw [hpq, hd] at hc
    exact (Option.some.inj hc).symm
  obtain rfl : ix.cells.get d = entities := by
    rw [EntityIndex.entitiesAt?, hd] at he
    exact Option.some.inj he
  simp only [← hpq, EntityIndex.add, hc]
  exact entitiesAt?_noteCell hd

/-- **An entity added at a position of the grid leaves an index that says the same both ways.** -/
lemma Faithful.add (h : ix.Faithful g) (hp : g.Contains p) (entity : Int) :
    (ix.add entity p).2.Faithful g where
  toOnGrid := h.toOnGrid.add hp entity
  cells q hq := by
    obtain ⟨entities, he, hmem⟩ := h.cells q hq
    refine ⟨_, h.toOnGrid.entitiesAt?_add hp entity hq he, fun other => ?_⟩
    rw [mem_positionsOf_add, ← hmem]
    split
    · rename_i hpq
      simp only [Std.ExtTreeSet.mem_insert, Std.LawfulEqOrd.compare_eq_iff_eq, hpq, and_true]
      tauto
    · rename_i hpq
      simp [Ne.symm hpq]
  ids other := by
    rw [mem_ids_add, h.ids]
    simp only [mem_positionsOf_add, exists_or, exists_and_left, exists_eq, and_true]
    tauto

lemma Faithful.insert? (h : ix.Faithful g) (hp : g.Contains p) (entity : Int) :
    ix.insert? entity p = some (ix.add entity p).2 := by
  obtain ⟨c, hc⟩ := h.toOnGrid.exists_cell hp
  unfold EntityIndex.insert? EntityIndex.add
  rw [hc]
  rfl

lemma faithful_empty (g : Grid) : (empty g.width g.height).Faithful g where
  toOnGrid := onGrid_empty g
  cells p hp := by
    obtain ⟨c, hc⟩ := (onGrid_empty g).exists_cell hp
    refine ⟨∅, ?_, fun entity => by simp [positionsOf_empty]⟩
    rw [entitiesAt?, hc, Option.map_some, Vector.get_eq_getElem]
    exact congrArg some (Vector.getElem_replicate ..)
  ids entity := by
    simp only [positionsOf_empty]
    simp [ids, empty]

/-! ### An index is settled by its positions -/

lemma getElem?_places (ix : EntityIndex) (entity : Int) :
    ix.places[entity]? = if entity ∈ ix.ids then some (ix.positionsOf entity) else none := by
  have hids : entity ∈ ix.ids ↔ entity ∈ ix.places := Std.ExtTreeMap.mem_keys
  by_cases hm : entity ∈ ix.places
  · rw [if_pos (hids.2 hm), positionsOf, Std.ExtTreeMap.getD_eq_getD_getElem?,
      Std.ExtTreeMap.getElem?_eq_some_getElem hm, Option.getD_some]
  · rw [if_neg (mt hids.1 hm), Std.ExtTreeMap.getElem?_eq_none hm]

lemma eq_of_reads (hwidth : ix.width = iy.width) (hsize : ix.size = iy.size)
    (hids : ∀ entity, entity ∈ ix.ids ↔ entity ∈ iy.ids)
    (hplaces : ∀ entity p, p ∈ ix.positionsOf entity ↔ p ∈ iy.positionsOf entity)
    (hcells : ∀ entity (c : Fin ix.size),
      entity ∈ ix.cells.get c ↔ entity ∈ iy.cells.get (Fin.cast hsize c)) : ix = iy := by
  have hplaces : ix.places = iy.places := Std.ExtTreeMap.ext_getElem? fun entity => by
    simp only [getElem?_places, hids, PositionSet.ext (hplaces entity)]
  obtain ⟨width, size, places, cells⟩ := ix
  obtain ⟨width', size', places', cells'⟩ := iy
  obtain rfl : width = width' := hwidth
  obtain rfl : size = size' := hsize
  obtain rfl : places = places' := hplaces
  obtain rfl : cells = cells' := Vector.ext fun i hi =>
    Std.ExtTreeSet.ext_mem fun entity => hcells entity ⟨i, hi⟩
  rfl

/-- **Two indices of a grid with the same positions are the same.** -/
lemma Faithful.ext (h : ix.Faithful g) (h' : iy.Faithful g)
    (hp : ∀ entity, ix.positionsOf entity = iy.positionsOf entity) : ix = iy := by
  have hcells (entity : Int) (c : g.Cell) : entity ∈ ix.cells.get (Fin.cast h.size.symm c) ↔
      entity ∈ iy.cells.get (Fin.cast h'.size.symm c) := by
    obtain ⟨xs, hxs, hx⟩ := h.cells _ (Grid.contains_position c)
    obtain ⟨ys, hys, hy⟩ := h'.cells _ (Grid.contains_position c)
    rw [entitiesAt?, OnGrid.cell?_position h.toOnGrid, Option.map_some, Option.some.injEq] at hxs
    rw [entitiesAt?, OnGrid.cell?_position h'.toOnGrid, Option.map_some, Option.some.injEq] at hys
    rw [hxs, hys, hx, hy, hp]
  exact eq_of_reads (h.width.trans h'.width.symm) (h.size.trans h'.size.symm)
    (fun entity => by rw [h.ids, h'.ids, hp]) (fun entity p => by rw [hp])
    fun entity c => hcells entity (Fin.cast h.size c)

end EntityIndex

end SoundAtlas
