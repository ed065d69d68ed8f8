import SoundAtlas.Proofs.Index.Faithful

/-!
What an index holds after calls to add an entity at a position, on its grid or off it. Every
position is kept, also one without a cell, and an entity is in all cells that the numbers of its
positions lead to. So the index says the same both ways if and only if all positions lie on the
grid.
-/

namespace SoundAtlas.EntityIndex

variable {ix iy : EntityIndex} {g : Grid} {calls others : List (Int × Position)}
  {entity other : Int} {p : Position}

/-! ### One call -/

lemma isSome_slot? {size : ℕ} {n : ℤ} : (slot? size n).isSome = true ↔ -size ≤ n ∧ n < size := by
  unfold slot?
  split_ifs with h h' <;> simp <;> omega

lemma cell?_cast (hwidth : ix.width = iy.width) (hsize : ix.size = iy.size) {c : Fin ix.size} :
    iy.cell? p = some (Fin.cast hsize c) ↔ ix.cell? p = some c := by
  obtain ⟨width, size, places, cells⟩ := ix
  obtain ⟨width', size', places', cells'⟩ := iy
  obtain rfl : width = width' := hwidth
  obtain rfl : size = size' := hsize
  rfl

lemma add_of_some {c : Fin ix.size} (hp : ix.cell? p = some c) :
    ix.add entity p = (true, (ix.noteCell entity c).notePlace entity p) := by
  rw [add, hp]

lemma add_of_none (hp : ix.cell? p = none) : ix.add entity p = (false, ix.notePlace entity p) := by
  rw [add, hp]

lemma fst_add : (ix.add entity p).1 = (ix.cell? p).isSome := by
  cases hp : ix.cell? p with
  | some c => rw [add_of_some hp, Option.isSome_some]
  | none => rw [add_of_none hp, Option.isSome_none]

lemma mem_ids_of_mem (h : p ∈ ix.positionsOf entity) : entity ∈ ix.ids := by
  by_contra hno
  have hnone := getElem?_places ix entity
  rw [if_neg hno] at hnone
  rw [positionsOf, Std.ExtTreeMap.getD_eq_getD_getElem?, hnone] at h
  exact Std.ExtTreeSet.not_mem_empty h

/-- **A call that fails keeps the position** all the same. It changes nothing only if the position
has been kept before. -/
lemma add_eq_self_iff (hp : ix.cell? p = none) :
    (ix.add entity p).2 = ix ↔ p ∈ ix.positionsOf entity := by
  constructor
  · intro h
    rw [← h]
    exact mem_positionsOf_add.2 (.inr ⟨rfl, rfl⟩)
  · intro h
    have hids (other : Int) : other ∈ (ix.add entity p).2.ids ↔ other ∈ ix.ids := by
      rw [mem_ids_add, or_iff_right_of_imp]
      rintro rfl
      exact mem_ids_of_mem h
    have hplaces (other : Int) (q : Position) :
        q ∈ (ix.add entity p).2.positionsOf other ↔ q ∈ ix.positionsOf other := by
      rw [mem_positionsOf_add, or_iff_left_of_imp]
      rintro ⟨rfl, rfl⟩
      exact h
    rw [add_of_none hp] at hids hplaces ⊢
    exact eq_of_reads rfl rfl hids hplaces fun _ _ => Iff.rfl

/-! ### All calls -/

/-- An index of the extent of a grid, with what calls have told it: their entities at their
positions, in the cells that these lead to. -/
structure Records (ix : EntityIndex) (g : Grid) (calls : List (Int × Position)) : Prop where
  width : ix.width = g.width
  size : ix.size = g.size
  ids : ∀ entity, entity ∈ ix.ids ↔ ∃ p, (entity, p) ∈ calls
  places : ∀ entity p, p ∈ ix.positionsOf entity ↔ (entity, p) ∈ calls
  cells : ∀ entity c, entity ∈ ix.cells.get c ↔ ∃ p, (entity, p) ∈ calls ∧ ix.cell? p = some c

lemma records_empty (g : Grid) : (empty g.width g.height).Records g [] where
  width := rfl
  size := (onGrid_empty g).size
  ids entity := by simp [ids, empty]
  places entity p := by simp [positionsOf_empty]
  cells entity c := by
    have hget : (empty g.width g.height).cells.get c = ∅ := by
      rw [Vector.get_eq_getElem]
      exact Vector.getElem_replicate ..
    simp [hget]

lemma exists_mem_snoc {P : Position → Prop} :
    (∃ q, (other, q) ∈ calls ++ [(entity, p)] ∧ P q) ↔
      (∃ q, (other, q) ∈ calls ∧ P q) ∨ (other = entity ∧ P p) := by
  simp only [List.mem_append, List.mem_singleton, Prod.mk.injEq, or_and_right, exists_or]
  refine or_congr_right ⟨?_, fun h => ⟨p, ⟨h.1, rfl⟩, h.2⟩⟩
  rintro ⟨q, ⟨he, rfl⟩, hq⟩
  exact ⟨he, hq⟩

/-- A call puts its entity in the cell that its position leads to, if there is one. -/
lemma Records.mem_cells_add (h : ix.Records g calls) (entity other : Int) (p : Position) :
    ∀ c : Fin (ix.add entity p).2.size, other ∈ (ix.add entity p).2.cells.get c ↔
      ∃ q, (other, q) ∈ calls ++ [(entity, p)] ∧ (ix.add entity p).2.cell? q = some c := by
  simp only [exists_mem_snoc]
  cases hp : ix.cell? p with
  | none =>
    rw [add_of_none hp]
    change ∀ c : Fin ix.size, other ∈ ix.cells.get c ↔
      (∃ q, (other, q) ∈ calls ∧ ix.cell? q = some c) ∨ (other = entity ∧ ix.cell? p = some c)
    intro c
    simp [h.cells, hp]
  | some d =>
    rw [add_of_some hp]
    change ∀ c : Fin ix.size, other ∈ (ix.cells.set d ((ix.cells.get d).insert entity)).get c ↔
      (∃ q, (other, q) ∈ calls ∧ ix.cell? q = some c) ∨ (other = entity ∧ ix.cell? p = some c)
    intro c
    rw [← h.cells, hp, Option.some.injEq, Vector.get_eq_getElem, Vector.getElem_set]
    split
    · rename_i hdc
      obtain rfl : d = c := Fin.ext hdc
      rw [Std.ExtTreeSet.mem_insert, Std.LawfulEqOrd.compare_eq_iff_eq, or_comm]
      simp [eq_comm]
    · rename_i hdc
      simp [Vector.get_eq_getElem, Fin.ext_iff, hdc]

lemma Records.add (h : ix.Records g calls) (entity : Int) (p : Position) :
    (ix.add entity p).2.Records g (calls ++ [(entity, p)]) where
  width := by
    rw [← h.width]
    unfold EntityIndex.add
    split <;> rfl
  size := by
    rw [← h.size]
    unfold EntityIndex.add
    split <;> rfl
  ids other := by
    have hsnoc := @exists_mem_snoc calls entity other p fun _ => True
    simp only [and_true] at hsnoc
    rw [mem_ids_add, h.ids, hsnoc, or_comm]
  places other q := by
    rw [mem_positionsOf_add, h.places, List.mem_append, List.mem_singleton, Prod.mk.injEq]
  cells other := h.mem_cells_add entity other p

/-- The index after calls in turn, whether they fail or not. -/
def addAll (ix : EntityIndex) (calls : List (Int × Position)) : EntityIndex :=
  calls.foldl (fun ix call => (ix.add call.1 call.2).2) ix

/-- **After all calls** the index holds what they have told it. -/
lemma Records.addAll {told : List (Int × Position)} (h : ix.Records g told) :
    (ix.addAll calls).Records g (told ++ calls) := by
  induction calls generalizing ix told with
  | nil => rwa [List.append_nil]
  | cons call calls ih =>
    rw [← List.singleton_append, ← List.append_assoc]
    exact ih (h.add call.1 call.2)

/-- **It does not matter in which order the calls come**, nor how often. -/
lemma Records.unique (h : ix.Records g calls) (h' : iy.Records g others)
    (hcalls : ∀ call, call ∈ calls ↔ call ∈ others) : ix = iy := by
  have hsize : ix.size = iy.size := h.size.trans h'.size.symm
  have hwidth : ix.width = iy.width := h.width.trans h'.width.symm
  refine eq_of_reads hwidth hsize (fun entity => ?_) (fun entity p => ?_) fun entity c => ?_
  · simp only [h.ids, h'.ids, hcalls]
  · rw [h.places, h'.places, hcalls]
  · simp only [h.cells, h'.cells, hcalls, cell?_cast hwidth hsize]

/-! ### Both ways -/

lemma Records.entitiesAt? (h : ix.Records g calls) (hp : g.Contains p) :
    ∃ entities, ix.entitiesAt? p = some entities ∧ ∀ entity, entity ∈ entities ↔
      ∃ q ∈ ix.positionsOf entity, ix.cell? q = ix.cell? p := by
  obtain ⟨d, hd⟩ := (onGrid_empty g).exists_cell hp
  have hsize : (empty g.width g.height).size = ix.size := (onGrid_empty g).size.trans h.size.symm
  have hcell : ix.cell? p = some (Fin.cast hsize d) := (cell?_cast h.width.symm hsize).2 hd
  refine ⟨_, by rw [EntityIndex.entitiesAt?, hcell, Option.map_some], fun entity => ?_⟩
  simp only [h.cells, h.places, hcell]

/-- What has been told of positions on the grid only reads the same both ways. -/
lemma Records.faithful_iff (h : ix.Records g calls) :
    ix.Faithful g ↔ ∀ call ∈ calls, g.Contains call.2 := by
  constructor
  · intro hfaithful call hcall
    exact hfaithful.places call.1 call.2 ((h.places _ _).2 hcall)
  · intro hcalls
    have hgrid : ix.OnGrid g :=
      ⟨h.width, h.size, fun entity p hp => hcalls _ ((h.places entity p).1 hp)⟩
    refine ⟨hgrid, fun p hp => ?_, fun entity => ?_⟩
    · obtain ⟨entities, hentities, hmem⟩ := h.entitiesAt? hp
      refine ⟨entities, hentities, fun entity => (hmem entity).trans ⟨?_, fun hp => ⟨p, hp, rfl⟩⟩⟩
      rintro ⟨q, hq, hcell⟩
      rwa [← hgrid.cell?_inj (hgrid.places entity q hq) hp hcell]
    · simp only [h.ids, h.places]

/-- **An index says the same both ways exactly if all positions that it was told lie on its grid.**
A cell holds the entities with a position whose number leads to it. Only a number beyond those of
the cells, counted from either end, makes a call fail, and the call is without effect only if it has
been made before. What the calls lead to depends on which they are, not on their order. -/
theorem addAll_faithful_iff (g : Grid) (calls : List (Int × Position)) :
    let ix := (empty g.width g.height).addAll calls
    (ix.Faithful g ↔ ∀ call ∈ calls, g.Contains call.2) ∧
      (∀ p, g.Contains p → ∃ entities, ix.entitiesAt? p = some entities ∧
        ∀ entity, entity ∈ entities ↔ ∃ q ∈ ix.positionsOf entity, ix.cell? q = ix.cell? p) ∧
      (∀ entity p, ((ix.add entity p).1 = true ↔
          -(g.size : ℤ) ≤ p.y * g.width + p.x ∧ p.y * g.width + p.x < g.size) ∧
        ((ix.add entity p).1 = false → ((ix.add entity p).2 = ix ↔ (entity, p) ∈ calls))) ∧
      ∀ others, (∀ call, call ∈ calls ↔ call ∈ others) →
        (empty g.width g.height).addAll others = ix := by
  intro ix
  have htold : ix.Records g calls := (records_empty g).addAll
  refine ⟨htold.faithful_iff, fun p => htold.entitiesAt?, fun entity p => ⟨?_, fun hfail => ?_⟩,
    fun others hcalls => ((htold.unique (records_empty g).addAll hcalls).symm)⟩
  · rw [fst_add, cell?, isSome_slot?, htold.size, htold.width]
  · rw [fst_add, Option.isSome_eq_false_iff, Option.isNone_iff_eq_none] at hfail
    rw [add_eq_self_iff hfail, htold.places]

theorem failed_add_keeps :
    let ix := empty 2 2
    let failed := (ix.add 5 ⟨9, 9⟩).2
    (ix.add 5 ⟨9, 9⟩).1 = false ∧ ix.ids = [] ∧ failed.ids = [5] ∧ failed.count = 1 ∧
      (failed.positionsOf 5).toList = [⟨9, 9⟩] ∧ ¬ (Grid.mk 2 2).Contains ⟨9, 9⟩ := by
  decide +kernel

end SoundAtlas.EntityIndex
