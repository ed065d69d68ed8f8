import SoundAtlas.Proofs.Search.Findings

/-!
The cells that a search takes, and when it takes them all. What is found can be read off these
cells; and a search that asks for no fewer entities than there are never has enough, so that only
the cells decide where it ends.
-/

namespace SoundAtlas.Search

variable {n : Network} {g : Grid} {index : EntityIndex} {q : Query} {id : Int}
  {distance : g.Cell → g.Cell → Float} {cells : List g.Cell}

lemma mem_found (h : index.Faithful g)
    (hfull : ¬ q.maxCount ≤ (found index q cells).length) : id ∈ found index q cells ↔
      (q.accept id = true ∧ id ∉ q.ids) ∧ ∃ c ∈ cells, g.position c ∈ index.positionsOf id := by
  obtain ⟨hall, -⟩ := harvest_of_not_full hfull
  rw [found, hall, eligible, List.mem_filter, List.mem_eraseDups, List.mem_flatMap]
  simp only [mem_entitiesIn h, Bool.and_eq_true, Bool.not_eq_true', List.contains_eq_mem,
    decide_eq_false_iff_not]
  tauto

/-! ### Where a search begins -/

lemma exists_of_startCells {ids : List Int} {c : g.Cell} (hc : c ∈ startCells g index ids) :
    ∃ start ∈ ids, g.position c ∈ index.positionsOf start :=
  mem_startPositions.1 (mem_startCells.1 hc)

lemma expandAll_nil : expandAll distance index q [] = [] := by
  by_cases hfull : q.maxCount ≤ (found index q ([] : List g.Cell)).length
  · exact expandAll_of_full hfull
  · refine expandAll_of_none (pick_eq_none.2 (List.eq_nil_iff_forall_not_mem.2 fun e he => ?_))
    obtain ⟨-, hx⟩ := (mem_candidates distance).1 he
    obtain ⟨⟨d, hd, -⟩, -⟩ := mem_ways.1 (pick_mem hx)
    simp at hd

lemma prefix_expandAll (cells : List g.Cell) : cells <+: expandAll distance index q cells := by
  induction cells using expandAll.induct distance index q with
  | case1 cells hfull => rw [expandAll_of_full hfull]
  | case2 cells hfull hnone => rw [expandAll_of_none hnone]
  | case3 cells hfull e he hb => rw [expandAll_of_pick hfull he, if_pos hb]
  | case4 cells hfull e he hb ih =>
    rw [expandAll_of_pick hfull he, if_neg hb]
    exact (List.prefix_append _ _).trans ih

/-! ### When there is enough -/

/-- **A search that asks for no fewer entities than there are never has enough**: one of them at
least is asked about, and that one does not count. -/
lemma not_full (h : index.Faithful g) (hq : (index.count : Int) ≤ q.maxCount)
    (hs : startCells g index q.ids ≠ []) (cells : List g.Cell) :
    ¬ q.maxCount ≤ (found index q cells).length := by
  obtain ⟨c, hc⟩ := List.exists_mem_of_ne_nil _ hs
  obtain ⟨start, hstart, hp⟩ := exists_of_startCells hc
  have hnodup : (start :: found index q cells).Nodup :=
    List.nodup_cons.2 ⟨fun hin => (of_mem_harvest hin).2.1 hstart, nodup_harvest _ _⟩
  have hsub : start :: found index q cells ⊆ index.ids := by
    intro id hid
    rw [h.ids]
    rcases List.mem_cons.1 hid with rfl | hid
    · exact ⟨_, hp⟩
    · obtain ⟨d, -, hd⟩ := List.mem_flatMap.1 (of_mem_harvest hid).1
      exact ⟨_, (mem_entitiesIn h).1 hd⟩
  have hlen : index.ids.length = index.count := Std.ExtTreeMap.length_keys
  have hle := hnodup.length_le_of_subset hsub
  rw [List.length_cons, hlen] at hle
  omega

lemma faithful_squareIndex : squareIndex.Faithful square.grid := by
  have h : (EntityIndex.empty 2 2).Faithful square.grid := EntityIndex.faithful_empty square.grid
  exact ((((h.add (by decide) 1).add (by decide) 2).add (by decide) 3).add (by decide) 4).add
    (by decide) 2

end SoundAtlas.Search
