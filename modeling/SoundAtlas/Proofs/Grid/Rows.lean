import Mathlib
import SoundAtlas.Proofs.Grid.Adjacency

/-!
A grid row by row. The positions on a grid come in the order of their cells, and so do the cells of
its rows; the pairs of cells side by side are those of cells beside each other, each taken once.
-/

namespace SoundAtlas.Grid

variable {g : Grid}

lemma flatMap_rows (w h : ℕ) : ((List.range h).flatMap fun y => (List.range w).map fun x =>
    (⟨(x : ℕ), (y : ℕ)⟩ : Position)) =
      (List.range (w * h)).map fun i => ⟨(i % w : ℕ), (i / w : ℕ)⟩ := by
  induction h with
  | zero => rfl
  | succ h ih =>
    rw [List.range_succ, List.flatMap_append, ih, Nat.mul_succ, List.range_add, List.map_append,
      List.flatMap_singleton, List.map_map]
    refine congrArg _ (List.map_congr_left fun x hx => ?_)
    have hlt := List.mem_range.1 hx
    simp only [Function.comp, Nat.mul_add_mod, Nat.mod_eq_of_lt hlt,
      Nat.mul_add_div (Nat.zero_lt_of_lt hlt), Nat.div_eq_of_lt hlt, Nat.add_zero]

/-- **The positions come in the order of their cells.** -/
lemma positions_eq (g : Grid) : g.positions = g.cells.map g.position := by
  rw [positions, flatMap_rows]
  change _ = (List.finRange g.size).map ((fun i : ℕ => (⟨(i % g.width : ℕ), (i / g.width : ℕ)⟩ :
    Position)) ∘ Fin.val)
  rw [← List.map_map, List.map_coe_finRange_eq_range]
  rfl

lemma mem_positions {p : Position} : p ∈ g.positions ↔ g.Contains p := by
  rw [positions_eq, List.mem_map]
  constructor
  · rintro ⟨c, -, rfl⟩
    exact contains_position c
  · intro h
    obtain ⟨c, hc⟩ := exists_position h
    exact ⟨c, List.mem_finRange c, hc⟩

lemma position_cellAt (x : Fin g.width) (y : Fin g.height) :
    g.position (g.cellAt x y) = ⟨(x : ℕ), (y : ℕ)⟩ := by
  have hw : 0 < g.width := x.pos
  simp only [position, cellAt, Nat.mod_eq_of_lt x.isLt,
    Nat.mul_comm y.val, Nat.mul_add_div hw, Nat.div_eq_of_lt x.isLt, Nat.add_zero,
    Nat.mul_add_mod]

lemma exists_cellAt (c : g.Cell) : ∃ x y, g.cellAt x y = c :=
  ⟨⟨c.val % g.width, Nat.mod_lt _ (width_pos c)⟩, ⟨c.val / g.width, Nat.div_lt_of_lt_mul c.isLt⟩,
    Fin.ext (Nat.div_add_mod' c.val g.width)⟩

/-- **The rows of cells**, one after the other, are all cells in their order. -/
lemma flatten_rows (g : Grid) : g.rows.flatten = g.cells := by
  refine List.map_injective_iff.2 position_injective ?_
  have hrow : ∀ y : Fin g.height,
      ((List.finRange g.width).map fun x => g.cellAt x y).map g.position =
      (List.range g.width).map fun x => ⟨(x : ℕ), (y : ℕ)⟩ := fun y => by
    rw [List.map_map, ← List.map_coe_finRange_eq_range, List.map_map]
    exact List.map_congr_left fun x _ => position_cellAt x y
  rw [← positions_eq, List.map_flatten, rows, List.map_map, ← List.flatMap_def, positions,
    ← List.map_coe_finRange_eq_range (n := g.height), List.flatMap_map]
  exact List.flatMap_congr fun y _ => hrow y

/-! ### Cells side by side -/

def Adjoins (g : Grid) (p : g.Cell × g.Cell) : Prop :=
  g.position p.1 = ⟨(g.position p.2).x + 1, (g.position p.2).y⟩ ∨
    g.position p.1 = ⟨(g.position p.2).x, (g.position p.2).y + 1⟩

instance (g : Grid) : DecidablePred g.Adjoins := fun _ =>
  inferInstanceAs (Decidable (_ ∨ _))

lemma mem_tail_zip {α : Type} {l : List α} {p : α × α} :
    p ∈ l.tail.zip l ↔ ∃ i, ∃ h : i + 1 < l.length, p = (l[i + 1], l[i]) := by
  rw [List.mem_iff_getElem]
  simp only [List.length_zip, List.length_tail, List.getElem_zip, List.getElem_tail,
    eq_comm (a := p)]
  refine exists_congr fun i => ⟨fun ⟨h, hp⟩ => ⟨by omega, hp⟩, fun ⟨h, hp⟩ => ⟨by omega, hp⟩⟩

lemma mem_pairsAcross {p : g.Cell × g.Cell} : p ∈ g.pairsAcross ↔
    g.position p.1 = ⟨(g.position p.2).x + 1, (g.position p.2).y⟩ := by
  simp only [pairsAcross, rows, List.mem_flatMap, List.mem_map, List.mem_finRange, true_and,
    exists_exists_eq_and, mem_tail_zip, List.getElem_map, List.getElem_finRange, List.length_map,
    List.length_finRange]
  constructor
  · rintro ⟨y, i, h, rfl⟩
    simp [position_cellAt]
  · obtain ⟨b, a⟩ := p
    obtain ⟨x', y', rfl⟩ := exists_cellAt b
    obtain ⟨x, y, rfl⟩ := exists_cellAt a
    simp only [position_cellAt, Position.mk.injEq]
    rintro ⟨hx, hy⟩
    obtain rfl : y' = y := by omega
    have hx : x'.val = x.val + 1 := by omega
    refine ⟨y', x, hx ▸ x'.isLt, ?_⟩
    rw [Prod.mk.injEq]
    exact ⟨congrArg (g.cellAt · y') (Fin.ext hx), rfl⟩

lemma mem_pairsDown {p : g.Cell × g.Cell} : p ∈ g.pairsDown ↔
    g.position p.1 = ⟨(g.position p.2).x, (g.position p.2).y + 1⟩ := by
  simp only [pairsDown, List.mem_flatMap, mem_tail_zip, rows, List.getElem_map,
    List.getElem_finRange, List.length_map, List.length_finRange]
  constructor
  · rintro ⟨_, ⟨i, h, rfl⟩, hp⟩
    simp only [List.mem_iff_getElem, List.getElem_zip, List.getElem_map,
      List.getElem_finRange] at hp
    obtain ⟨j, hj, rfl⟩ := hp
    simp [position_cellAt]
  · obtain ⟨b, a⟩ := p
    obtain ⟨x', y', rfl⟩ := exists_cellAt b
    obtain ⟨x, y, rfl⟩ := exists_cellAt a
    simp only [position_cellAt, Position.mk.injEq]
    rintro ⟨hx, hy⟩
    obtain rfl : x' = x := by omega
    have hy : y'.val = y.val + 1 := by omega
    refine ⟨_, ⟨y, hy ▸ y'.isLt, rfl⟩, ?_⟩
    rw [List.zip_map', List.mem_map]
    refine ⟨x', List.mem_finRange x', ?_⟩
    rw [Prod.mk.injEq]
    exact ⟨congrArg (g.cellAt x' ·) (Fin.ext hy.symm), rfl⟩

lemma mem_pairs {p : g.Cell × g.Cell} : p ∈ g.pairs ↔ g.Adjoins p := by
  rw [pairs, List.mem_append, mem_pairsAcross, mem_pairsDown, Adjoins]

lemma map_snd_zip_sublist {α β : Type} (l : List α) (m : List β) :
    ((l.zip m).map Prod.snd).Sublist m := by
  rw [List.zip_eq_zip_take_min, List.map_snd_zip (by simp)]
  exact List.take_sublist _ _

/-- No pair comes twice, as no cell has two to its right, or two below it. -/
lemma nodup_pairs (g : Grid) : g.pairs.Nodup := by
  have hcells : g.rows.flatten.Nodup := flatten_rows g ▸ List.nodup_finRange _
  have hacross : (g.pairsAcross.map Prod.snd).Sublist g.rows.flatten := by
    rw [pairsAcross, List.map_flatMap, ← List.flatMap_id]
    exact List.Sublist.flatMap_right _ fun row _ => map_snd_zip_sublist _ _
  have hdown : (g.pairsDown.map Prod.snd).Sublist g.rows.flatten := by
    rw [pairsDown, List.map_flatMap]
    refine (List.Sublist.flatMap_right _ (g := Prod.snd) fun rows _ =>
      map_snd_zip_sublist _ _).trans ?_
    rw [List.flatMap_def]
    exact (map_snd_zip_sublist _ _).flatten
  refine List.nodup_append.2 ⟨(hcells.sublist hacross).of_map _, (hcells.sublist hdown).of_map _,
    fun p hp q hq hpq => ?_⟩
  have hdiffer := mem_pairsDown.1 (hpq ▸ hq)
  rw [mem_pairsAcross.1 hp] at hdiffer
  simp at hdiffer

lemma length_flatMap_const {α β : Type} {l : List α} {f : α → List β} {n : ℕ}
    (h : ∀ x ∈ l, (f x).length = n) : (l.flatMap f).length = l.length * n := by
  rw [List.length_flatMap, List.map_congr_left h, List.map_const', List.sum_replicate, smul_eq_mul]

lemma length_pairs (g : Grid) :
    g.pairs.length = g.height * (g.width - 1) + g.width * (g.height - 1) := by
  have hcount : g.rows.length = g.height := by simp [rows]
  have hrow : ∀ row ∈ g.rows, row.length = g.width := by
    simp only [rows, List.forall_mem_map, List.length_map, List.length_finRange, implies_true]
  have hacross : g.pairsAcross.length = g.height * (g.width - 1) := by
    rw [pairsAcross, length_flatMap_const (n := g.width - 1), hcount]
    intro row h
    simp [hrow row h]
  have hdown : g.pairsDown.length = (g.height - 1) * g.width := by
    rw [pairsDown, length_flatMap_const (n := g.width), List.length_zip, List.length_tail, hcount,
      Nat.min_eq_left (Nat.sub_le _ _)]
    intro rows h
    obtain ⟨hnext, h⟩ := List.of_mem_zip h
    rw [List.length_zip, hrow _ (List.mem_of_mem_tail hnext), hrow _ h, Nat.min_self]
  rw [pairs, List.length_append, hacross, hdown, Nat.mul_comm g.width]

/-- The pairs of cells side by side, without an order. -/
def sideBySide (g : Grid) : Finset (g.Cell × g.Cell) :=
  Finset.univ.filter g.Adjoins

/-- **The pairs are those of cells side by side**, each taken once. -/
lemma coe_pairs (g : Grid) : (g.pairs : Multiset (g.Cell × g.Cell)) = g.sideBySide.val := by
  refine (Multiset.Nodup.ext (Multiset.coe_nodup.2 (nodup_pairs g)) g.sideBySide.nodup).2
    fun p => ?_
  rw [Multiset.mem_coe, mem_pairs, Finset.mem_val, sideBySide, Finset.mem_filter_univ]

/-- **Of two cells that lie beside each other** exactly one is to the right of the other or below
it. -/
lemma mem_neighbors_iff_xor {a b : g.Cell} : g.position b ∈ g.neighbors (g.position a) ↔
    Xor ((b, a) ∈ g.sideBySide) ((a, b) ∈ g.sideBySide) := by
  rw [mem_neighbors, and_iff_left (contains_position b)]
  simp only [sideBySide, Finset.mem_filter_univ, Adjoins]
  generalize g.position a = p
  generalize g.position b = q
  obtain ⟨x, y⟩ := p
  obtain ⟨x', y'⟩ := q
  simp only [Position.around, List.mem_cons, List.not_mem_nil, or_false, Position.mk.injEq, xor_def]
  omega

/-! ### Steps from cell to cell -/

lemma nodup_around (p : Position) : p.around.Nodup := by
  simp only [Position.around, List.nodup_cons, List.mem_cons, Position.mk.injEq, List.not_mem_nil,
    or_false, List.nodup_nil, and_true, not_false_eq_true]
  omega

lemma nodup_cellsBeside (c : g.Cell) : (g.cellsBeside c).Nodup := by
  refine (nodup_around (g.position c)).filterMap fun p r d hp hr => ?_
  rw [← cell?_eq_some.1 hp, ← cell?_eq_some.1 hr]

/-- The steps from a cell to one beside it. -/
def steps (g : Grid) : Finset (g.Cell × g.Cell) :=
  Finset.univ.filter fun step => g.position step.2 ∈ g.neighbors (g.position step.1)

lemma mem_steps {c d : g.Cell} : (c, d) ∈ g.steps ↔ d ∈ g.cellsBeside c := by
  rw [steps, Finset.mem_filter_univ, mem_neighbors, mem_cellsBeside,
    and_iff_left (contains_position d)]

lemma Adjoins.asymm {c d : g.Cell} (h : g.Adjoins (c, d)) : ¬ g.Adjoins (d, c) := by
  simp only [Adjoins] at h ⊢
  generalize g.position c = p at *
  generalize g.position d = r at *
  obtain ⟨x, y⟩ := p
  obtain ⟨x', y'⟩ := r
  simp only [Position.mk.injEq] at *
  omega

lemma mem_steps_iff_or {c d : g.Cell} :
    (c, d) ∈ g.steps ↔ (c, d) ∈ g.sideBySide ∨ (d, c) ∈ g.sideBySide := by
  rw [steps, Finset.mem_filter_univ, mem_neighbors_iff_xor]
  simp only [sideBySide, Finset.mem_filter_univ]
  constructor
  · rintro (⟨h, -⟩ | ⟨h, -⟩)
    exacts [Or.inr h, Or.inl h]
  · rintro (h | h)
    exacts [Or.inr ⟨h, h.asymm⟩, Or.inl ⟨h, h.asymm⟩]

/-- **How many steps there are**: two for each pair of cells side by side. -/
lemma card_steps (g : Grid) :
    g.steps.card = 2 * (g.height * (g.width - 1) + g.width * (g.height - 1)) := by
  have hpairs : g.sideBySide.card = g.pairs.length := by
    rw [Finset.card_def, ← coe_pairs, Multiset.coe_card]
  have hback : (g.sideBySide.map (Equiv.prodComm _ _).toEmbedding).card = g.sideBySide.card :=
    Finset.card_map _
  have hone : Disjoint g.sideBySide (g.sideBySide.map (Equiv.prodComm _ _).toEmbedding) := by
    refine Finset.disjoint_left.2 fun p hp hback => ?_
    obtain ⟨r, hr, rfl⟩ := Finset.mem_map.1 hback
    exact (Finset.mem_filter.1 hr).2.asymm (Finset.mem_filter.1 hp).2
  have hsteps : g.steps = g.sideBySide ∪ g.sideBySide.map (Equiv.prodComm _ _).toEmbedding := by
    ext ⟨c, d⟩
    rw [mem_steps_iff_or, Finset.mem_union, Finset.mem_map_equiv]
    rfl
  rw [hsteps, Finset.card_union_of_disjoint hone, hback, hpairs, length_pairs, ← Nat.two_mul]

end SoundAtlas.Grid
