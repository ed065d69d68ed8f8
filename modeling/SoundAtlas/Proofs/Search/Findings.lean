import SoundAtlas.Proofs.Index.Faithful
import SoundAtlas.Proofs.Search.Expansion

/-!
What a search may find: entities that are accepted, that are none of those asked for, that are in a
cell of the index, and each of them once.
-/

namespace SoundAtlas

/-- An entity is in a cell of a grid, and the cell is one of its positions. -/
def EntityIndex.Occupies (index : EntityIndex) (g : Grid) (entity : Int) : Prop :=
  ∃ p, g.Contains p ∧ p ∈ index.positionsOf entity ∧
    ∃ entities, index.entitiesAt? p = some entities ∧ entity ∈ entities

namespace Search

variable {n : Network} {g : Grid} {index : EntityIndex} {q : Query} {met ids : List Int} {id : Int}

/-! ### What counts among the entities met -/

lemma nodup_eraseDups (met : List Int) : met.eraseDups.Nodup := by
  induction met using List.reverseRecOn with
  | nil => exact List.nodup_nil
  | append_singleton met id ih =>
    rw [List.eraseDups_append]
    by_cases hid : id ∈ met
    · simpa [List.removeAll, hid] using ih
    · have hnew : [id].removeAll met = [id] := by simp [List.removeAll, hid]
      have hone : ([id] : List Int).eraseDups = [id] := rfl
      rw [hnew, hone]
      exact ih.append (List.nodup_singleton id) (by simpa using hid)

lemma nodup_harvest (q : Query) (met : List Int) : (harvest q met).Nodup :=
  ((nodup_eraseDups met).filter _).sublist (List.take_sublist _ _)

lemma of_mem_harvest (h : id ∈ harvest q met) : id ∈ met ∧ id ∉ q.ids ∧ q.accept id = true := by
  have heligible := List.mem_of_mem_take h
  rw [eligible, List.mem_filter, List.mem_eraseDups, Bool.and_eq_true] at heligible
  simpa using heligible

/-! ### What counts in the cells of an index -/

lemma mem_entitiesIn (h : index.Faithful g) {c : g.Cell} :
    id ∈ entitiesIn index c ↔ g.position c ∈ index.positionsOf id := by
  obtain ⟨entities, he, hmem⟩ := h.cells _ (Grid.contains_position c)
  rw [entitiesIn, he, Option.getD_some, Std.ExtTreeSet.mem_toList, hmem]

lemma occupies_of_mem_entitiesIn (h : index.Faithful g) {c : g.Cell}
    (hid : id ∈ entitiesIn index c) :
    index.Occupies g id := by
  have hp := Grid.contains_position c
  have hpos := (mem_entitiesIn h).1 hid
  obtain ⟨entities, he, hmem⟩ := h.cells _ hp
  exact ⟨_, hp, hpos, entities, he, (hmem id).2 hpos⟩

/-- **What a search finds**: each entity once, accepted, none of those asked for, and in a cell. -/
lemma of_findSimilar (hn : n.state = .trained) (h : index.Faithful n.grid)
    (hf : findSimilar n index q = .ok ids) :
    ids.Nodup ∧ ∀ id ∈ ids, q.accept id = true ∧ id ∉ q.ids ∧ index.Occupies n.grid id := by
  rw [findSimilar_greedy hn h.toOnGrid q] at hf
  obtain rfl := Except.ok.inj hf
  refine ⟨nodup_harvest _ _, fun id hid => ?_⟩
  obtain ⟨hmet, hids, haccept⟩ := of_mem_harvest hid
  obtain ⟨c, -, hc⟩ := List.mem_flatMap.1 hmet
  exact ⟨haccept, hids, occupies_of_mem_entitiesIn h hc⟩

end Search

end SoundAtlas
