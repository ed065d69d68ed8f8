import SoundAtlas.Proofs.Search.Frontier

/-!
What a search has found. Looking at entity after entity, and at none once enough has been found,
collects what can be read off all entities met.
-/

namespace SoundAtlas.Search

variable {g : Grid} {q : Query} {met : List Int} {s : State g}

/-! ### What is read off the entities met -/

lemma eligible_append_singleton (q : Query) (met : List Int) (id : Int) :
    eligible q (met ++ [id]) = eligible q met ++
      if id ∈ met ∨ id ∈ q.ids ∨ q.accept id = false then [] else [id] := by
  unfold eligible
  rw [List.eraseDups_append, List.filter_append]
  congr 1
  by_cases hm : id ∈ met
  · simp [List.removeAll, hm]
  · have hd : ([id] : List Int).eraseDups = [id] := rfl
    simp only [List.removeAll, List.filter_cons, List.filter_nil, List.elem_eq_contains]
    by_cases hq : id ∈ q.ids <;> cases ha : q.accept id <;> simp [hm, hq, ha, hd]

lemma eligible_prefix (q : Query) (met more : List Int) :
    ∃ extra, eligible q (met ++ more) = eligible q met ++ extra := by
  unfold eligible
  rw [List.eraseDups_append, List.filter_append]
  exact ⟨_, rfl⟩

/-- Once enough has been found, what is met later does not matter. -/
lemma harvest_append_of_full (h : q.maxCount ≤ (harvest q met).length) (more : List Int) :
    harvest q (met ++ more) = harvest q met := by
  obtain ⟨extra, he⟩ := eligible_prefix q met more
  unfold harvest at h ⊢
  rw [he]
  have hlen : q.maxCount.toNat ≤ (eligible q met).length := by
    rw [List.length_take] at h
    omega
  exact List.take_append_of_le_length hlen

/-- As long as too little has been found, nothing is left out. -/
lemma harvest_of_not_full (h : ¬ q.maxCount ≤ (harvest q met).length) :
    harvest q met = eligible q met ∧ (eligible q met).length < q.maxCount.toNat := by
  unfold harvest at h ⊢
  rw [List.length_take] at h
  have hlen : (eligible q met).length < q.maxCount.toNat := by omega
  exact ⟨List.take_of_length_le hlen.le, hlen⟩

/-- There is room for one more, so nothing is left out after it either. -/
lemma harvest_append_singleton (h : ¬ q.maxCount ≤ (harvest q met).length) (id : Int) :
    harvest q (met ++ [id]) = eligible q met ++
      if id ∈ met ∨ id ∈ q.ids ∨ q.accept id = false then [] else [id] := by
  obtain ⟨-, hlt⟩ := harvest_of_not_full h
  rw [← eligible_append_singleton]
  refine List.take_of_length_le ?_
  rw [eligible_append_singleton, List.length_append]
  split <;> simp only [List.length_nil, List.length_singleton] <;> omega

/-! ### Looking at entities -/

/-- A search that has looked at the given entities, in this order. -/
structure Harvested (q : Query) (met : List Int) (s : State g) : Prop where
  results : s.results = harvest q met
  /-- As long as too little has been found, all entities met have been seen. -/
  seen : ¬ s.isFull q = true → ∀ id, id ∈ s.seen ↔ id ∈ q.ids ∨ id ∈ met

lemma harvested_start (q : Query) : Harvested q [] (State.start g q.ids) where
  results := by simp [State.start, harvest, eligible]
  seen _ id := by simp [State.start, Std.ExtTreeSet.mem_ofList]

lemma Harvested.isFull_iff (h : Harvested q met s) :
    s.isFull q = true ↔ q.maxCount ≤ (harvest q met).length := by
  rw [State.isFull, decide_eq_true_eq, h.results]

lemma Harvested.congr {t : State g} (h : Harvested q met s) (hr : t.results = s.results)
    (hs : t.seen = s.seen) : Harvested q met t where
  results := hr.trans h.results
  seen hf := hs ▸ h.seen (by rwa [State.isFull, hr] at hf)

lemma Harvested.meet (h : Harvested q met s) (id : Int) :
    Harvested q (met ++ [id]) (s.meet q id) := by
  unfold State.meet
  split
  · rename_i hfull
    rw [h.isFull_iff] at hfull
    exact ⟨h.results.trans (harvest_append_of_full hfull _).symm,
      fun hn => absurd (h.isFull_iff.2 hfull) hn⟩
  · rename_i hfull
    have hseen := h.seen hfull
    have hroom := mt h.isFull_iff.2 hfull
    have hnext := harvest_append_singleton hroom id
    have hres : s.results = eligible q met := h.results.trans (harvest_of_not_full hroom).1
    split
    · rename_i hin
      rw [Std.ExtTreeSet.contains_iff_mem, hseen] at hin
      constructor
      · rw [hres, hnext, if_pos (by tauto), List.append_nil]
      · intro _ x
        rw [hseen, List.mem_append, List.mem_singleton]
        constructor
        · tauto
        · rintro (hx | hx | rfl)
          · exact Or.inl hx
          · exact Or.inr hx
          · exact hin
    · rename_i hnot
      rw [Std.ExtTreeSet.contains_iff_mem, hseen, not_or] at hnot
      obtain ⟨hq, hm⟩ := hnot
      constructor
      · rw [hnext]
        cases ha : q.accept id <;> simp [hq, hm, hres]
      · intro _ x
        rw [Std.ExtTreeSet.mem_insert, hseen, List.mem_append, List.mem_singleton]
        have : compare id x = .eq ↔ x = id :=
          Std.LawfulEqOrd.compare_eq_iff_eq.trans eq_comm
        rw [this]
        tauto

lemma Harvested.meetAll (h : Harvested q met s) (entities : Std.ExtTreeSet Int) :
    Harvested q (met ++ entities.toList) (s.meetAll q entities) := by
  unfold State.meetAll
  generalize entities.toList = ids
  induction ids generalizing met s with
  | nil => simpa using h
  | cons id ids ih =>
    have := ih (h.meet id)
    rwa [List.append_assoc, List.singleton_append] at this

/-! ### What stays as it is -/

lemma meetAll_frame (q : Query) (s : State g) (entities : Std.ExtTreeSet Int) :
    (s.meetAll q entities).frontier = s.frontier ∧ (s.meetAll q entities).best = s.best := by
  unfold State.meetAll
  generalize entities.toList = ids
  induction ids generalizing s with
  | nil => exact ⟨rfl, rfl⟩
  | cons id ids ih =>
    have hmeet : (s.meet q id).frontier = s.frontier ∧ (s.meet q id).best = s.best := by
      unfold State.meet
      split
      · exact ⟨rfl, rfl⟩
      · split <;> exact ⟨rfl, rfl⟩
    rw [List.foldl_cons, (ih _).1, (ih _).2]
    exact hmeet

lemma extend_frame (distance : g.Cell → g.Cell → Float) (s : State g) (c : g.Cell) :
    (s.extend distance c).results = s.results ∧ (s.extend distance c).seen = s.seen := by
  unfold State.extend
  generalize g.cellsBeside c = ds
  induction ds generalizing s with
  | nil => exact ⟨rfl, rfl⟩
  | cons d ds ih =>
    rw [List.foldl_cons, (ih _).1, (ih _).2]
    split
    · exact ⟨rfl, rfl⟩
    · unfold State.offer
      split <;> exact ⟨rfl, rfl⟩

end SoundAtlas.Search
