import Mathlib
import SoundAtlas.Network.Basic
import SoundAtlas.Proofs.Grid.Rows
import SoundAtlas.Proofs.Index.Adding

/-!
One number for each position. A network, the list of its positions and every index of its extent
count the cells row by row: a position on the grid has the same number in all of them, and no other
position has it. Beside a position lie those at distance one, and from one to the next every
position is reached.
-/

namespace SoundAtlas

/-! ### Numbers and positions -/

namespace Network

variable {n : Network} {p : Position}

lemma cellAt_eq_ok {c : n.Cell} : n.cellAt p = .ok c ↔ n.grid.position c = p := by
  rw [← Grid.cell?_eq_some, cellAt]
  cases n.grid.cell? p <;> simp

lemma cellAt_eq_error {e : Error} :
    n.cellAt p = .error e ↔ e = .outside p n.grid ∧ ¬ n.grid.Contains p := by
  rw [cellAt]
  constructor
  · intro h
    split at h
    · cases h
    · rename_i hnone
      refine ⟨(Except.error.inj h).symm, fun hp => ?_⟩
      obtain ⟨c, hc⟩ := Grid.exists_position hp
      rw [Grid.cell?_eq_some.2 hc] at hnone
      cases hnone
  · rintro ⟨rfl, hp⟩
    split
    · rename_i c hc
      exact absurd (Grid.cell?_eq_some.1 hc ▸ Grid.contains_position c) hp
    · rfl

/-- The positions on the grid and the numbers of the cells are read off each other: every position
on the grid has a number, which counts row by row, and only these have one. -/
structure Numbered (n : Network) : Prop where
  cellAt_iff : ∀ p c, n.cellAt p = .ok c ↔ n.grid.position c = p
  number : ∀ p c, n.cellAt p = .ok c → (c.val : ℤ) = p.y * n.grid.width + p.x
  on_grid : ∀ p, (∃ c, n.cellAt p = .ok c) ↔ n.grid.Contains p
  off_grid : ∀ p, n.cellAt p = .error (.outside p n.grid) ↔ ¬ n.grid.Contains p

lemma numbered (n : Network) : n.Numbered where
  cellAt_iff p c := cellAt_eq_ok
  number p c h := by
    rw [← cellAt_eq_ok.1 h, EntityIndex.number_position]
  on_grid p := by
    simp only [cellAt_eq_ok]
    refine ⟨?_, Grid.exists_position⟩
    rintro ⟨c, rfl⟩
    exact Grid.contains_position c
  off_grid p := by
    rw [cellAt_eq_error, eq_self, true_and]

end Network

/-! ### The list of positions -/

namespace Grid

variable {g : Grid} {p r : Position}

/-- The list of positions has every position on the grid once, each at the place of its number. -/
structure ListsPositions (g : Grid) : Prop where
  mem : ∀ p, p ∈ g.positions ↔ g.Contains p
  nodup : g.positions.Nodup
  length : g.positions.length = g.width * g.height
  getElem : ∀ c : g.Cell, g.positions[c.val]? = some (g.position c)

lemma listsPositions (g : Grid) : g.ListsPositions where
  mem _ := mem_positions
  nodup := by
    rw [positions_eq]
    exact (List.nodup_finRange _).map position_injective
  length := by
    rw [positions_eq, List.length_map, cells, List.length_finRange, size]
  getElem c := by
    rw [positions_eq, cells, List.getElem?_map, List.getElem?_eq_getElem (by simp), Option.map_some,
      List.getElem_finRange]
    rfl

/-! ### Beside each other -/

lemma mem_around_iff : r ∈ p.around ↔ (p.x - r.x).natAbs + (p.y - r.y).natAbs = 1 := by
  obtain ⟨x, y⟩ := p
  obtain ⟨x', y'⟩ := r
  simp only [Position.around, List.mem_cons, Position.mk.injEq, List.not_mem_nil, or_false]
  omega

/-- Lying beside each other is a relation among the positions on the grid: it relates those at
distance one, counted along rows and columns, and no part of the grid is cut off. -/
structure Connects (g : Grid) : Prop where
  mem_neighbors : ∀ p r, r ∈ g.neighbors p ↔
    g.Contains r ∧ (p.x - r.x).natAbs + (p.y - r.y).natAbs = 1
  nodup : ∀ p, (g.neighbors p).Nodup
  irrefl : ∀ p, p ∉ g.neighbors p
  symm : ∀ p r, g.Contains p → r ∈ g.neighbors p → p ∈ g.neighbors r
  connected : ∀ p r, g.Contains p → g.Contains r →
    Relation.ReflTransGen (fun a b => b ∈ g.neighbors a) p r

lemma connects (g : Grid) : g.Connects where
  mem_neighbors p r := by
    rw [Grid.mem_neighbors, mem_around_iff, and_comm]
  nodup p := (nodup_around p).filter _
  irrefl p hp := by
    have hstep := mem_around_iff.1 (Grid.mem_neighbors.1 hp).1
    omega
  symm p r hp hr := Grid.mem_neighbors.2 ⟨mem_around_comm.1 (Grid.mem_neighbors.1 hr).1, hp⟩
  connected _ _ := Grid.connected

end Grid

/-! ### Indices -/

namespace EntityIndex

variable {n : Network} {ix : EntityIndex} {p : Position} {c : n.Cell}

/-- An index finds and adds entities under the numbers that a network gives to its cells: what is at
a position stands at the place of its number, and what is added there comes to no other position. -/
structure Addresses (ix : EntityIndex) (n : Network) : Prop where
  entitiesAt? : ∀ p c, n.cellAt p = .ok c →
    ∃ entities, ix.entitiesAt? p = some entities ∧ ix.cells[c.val]? = some entities
  add : ∀ p c entity, n.cellAt p = .ok c → (ix.add entity p).1 = true ∧
    ∀ k, (ix.add entity p).2.cells[k]? =
      if k = c.val then ix.cells[k]?.map (·.insert entity) else ix.cells[k]?
  unshared : ∀ p r entity, n.grid.Contains p → n.grid.Contains r → p ≠ r →
    (ix.add entity p).2.entitiesAt? r = ix.entitiesAt? r

section Extent

variable (hwidth : ix.width = n.grid.width) (hsize : ix.size = n.grid.size)
include hwidth

lemma cell?_of_cellAt (hp : n.cellAt p = .ok c) : ix.cell? p = some (Fin.cast hsize.symm c) := by
  obtain rfl := Network.cellAt_eq_ok.1 hp
  exact (cell?_cast hwidth.symm _).2 ((onGrid_empty n.grid).cell?_position c)

lemma addresses_of_extent (hsize : ix.size = n.grid.size) : ix.Addresses n where
  entitiesAt? p c hp := by
    have hlt : c.val < ix.size := by
      rw [hsize]
      exact c.isLt
    refine ⟨ix.cells[c.val], ?_, Vector.getElem?_eq_getElem hlt⟩
    rw [EntityIndex.entitiesAt?, cell?_of_cellAt hwidth hsize hp]
    rfl
  add p c entity hp := by
    have hlt : c.val < ix.size := by
      rw [hsize]
      exact c.isLt
    rw [add_of_some (cell?_of_cellAt hwidth hsize hp)]
    refine ⟨rfl, fun k => ?_⟩
    change (ix.cells.set c.val (ix.cells[c.val].insert entity))[k]? = _
    rw [Vector.getElem?_set]
    split
    · rename_i hk
      rw [if_pos hk.symm, ← hk, Vector.getElem?_eq_getElem hlt]
      rfl
    · rename_i hk
      rw [if_neg (Ne.symm hk)]
  unshared p r entity hp hr hne := by
    obtain ⟨c, hc⟩ := (n.numbered.on_grid p).2 hp
    obtain ⟨d, hd⟩ := (n.numbered.on_grid r).2 hr
    have hcd : Fin.cast hsize.symm c ≠ Fin.cast hsize.symm d := by
      intro h
      obtain rfl : c = d := Fin.cast_injective hsize.symm h
      exact hne ((Network.cellAt_eq_ok.1 hc).symm.trans (Network.cellAt_eq_ok.1 hd))
    rw [add_of_some (cell?_of_cellAt hwidth hsize hc)]
    change (ix.noteCell entity _).entitiesAt? r = _
    rw [entitiesAt?_noteCell (cell?_of_cellAt hwidth hsize hd), if_neg hcd, EntityIndex.entitiesAt?,
      cell?_of_cellAt hwidth hsize hd]
    rfl

end Extent

end EntityIndex

/-- **Every position on a grid has one number**, whoever asks for it. The cells of a network and the
positions on its grid are read off each other; the list of positions goes by the numbers of the
cells; and an index of the same extent, whatever has been added to it, finds and adds entities under
them. Beside each other lie the positions at distance one, and from one to the next every position
is reached. -/
theorem Network.addresses_agree (n : Network) (calls : List (Int × Position)) :
    n.Numbered ∧ n.grid.ListsPositions ∧
      ((EntityIndex.empty n.grid.width n.grid.height).addAll calls).Addresses n ∧
      n.grid.Connects := by
  have htold : EntityIndex.Records _ n.grid calls := (EntityIndex.records_empty n.grid).addAll
  exact ⟨n.numbered, n.grid.listsPositions, EntityIndex.addresses_of_extent htold.width htold.size,
    n.grid.connects⟩

end SoundAtlas
