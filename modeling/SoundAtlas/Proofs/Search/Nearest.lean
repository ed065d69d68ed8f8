import SoundAtlas.Proofs.Search.Frontier

/-!
The front of the frontier. Old entries are skipped without loss, and the first entry that is not old
is the cell that the plain expansion takes next, at the same distance.
-/

namespace SoundAtlas.Search

variable {g : Grid} {way : g.Cell → Float → Prop} {s : State g} {e : Entry g} {rest : Frontier g}

lemma isStale_iff : s.isStale e = true ↔
    e.cell ∈ s.searched ∨ ∃ b, s.best[e.cell]? = some b ∧ b < e.distance := by
  unfold State.isStale
  rw [Bool.or_eq_true, Std.ExtTreeSet.contains_iff_mem]
  refine or_congr_right ?_
  rcases s.best[e.cell]? with _ | b <;> simp

/-- **An old entry is skipped without loss.** -/
lemma Offered.skip (h : Offered way s) (hf : s.frontier = e :: rest)
    (he : s.isStale e = true) : Offered way { s with frontier := rest } where
  sorted := (List.pairwise_cons.1 (hf ▸ h.sorted)).2
  finite := h.finite
  least := h.least
  waiting c b hc hb := by
    obtain ⟨hw, hmem⟩ := h.waiting c b hc hb
    rw [hf] at hmem
    refine ⟨hw, (List.mem_cons.1 hmem).resolve_left ?_⟩
    rintro rfl
    rcases isStale_iff.1 he with hs | ⟨b', hb', hlt⟩
    · exact hc hs
    · obtain rfl : b = b' := Option.some.inj (hb.symm.trans hb')
      exact Number.float_lt_irrefl _ hlt
  entries x hx := h.entries x (hf ▸ List.mem_cons_of_mem _ hx)

lemma Offered.take (h : Offered way s) (hf : s.frontier = e :: rest) :
    Offered way (({ s with frontier := rest } : State g).mark e.cell) where
  sorted := (List.pairwise_cons.1 (hf ▸ h.sorted)).2
  finite c x hc := h.finite c x fun hs => hc (Std.ExtTreeSet.mem_insert.2 (Or.inr hs))
  least c x hc := h.least c x fun hs => hc (Std.ExtTreeSet.mem_insert.2 (Or.inr hs))
  waiting c b hc hb := by
    obtain ⟨hw, hmem⟩ := h.waiting c b (fun hs => hc (Std.ExtTreeSet.mem_insert.2 (Or.inr hs))) hb
    rw [hf] at hmem
    refine ⟨hw, (List.mem_cons.1 hmem).resolve_left ?_⟩
    rintro rfl
    exact hc Std.ExtTreeSet.mem_insert_self
  entries x hx hc := h.entries x (hf ▸ List.mem_cons_of_mem _ hx)
    fun hs => hc (Std.ExtTreeSet.mem_insert.2 (Or.inr hs))

/-! ### The nearest candidate -/

variable {distance : g.Cell → g.Cell → Float} {searched : List g.Cell}

lemma mem_ways {c : g.Cell} {x : Float} : x ∈ ways distance searched c ↔
    (∃ d ∈ searched, d ∈ g.cellsBeside c ∧ x = distance d c) ∧ x < 1.0 / 0.0 := by
  simp only [ways, List.mem_filter, List.mem_map, decide_eq_true_eq]
  constructor
  · rintro ⟨⟨d, ⟨hd, hb⟩, rfl⟩, hx⟩
    exact ⟨⟨d, hd, hb, rfl⟩, hx⟩
  · rintro ⟨⟨d, hd, hb, rfl⟩, hx⟩
    exact ⟨⟨d, ⟨hd, hb⟩, rfl⟩, hx⟩

lemma mem_ways_append {c d : g.Cell} {x : Float} : x ∈ ways distance (searched ++ [d]) c ↔
    x ∈ ways distance searched c ∨ c ∈ g.cellsBeside d ∧ x = distance d c ∧ x < 1.0 / 0.0 := by
  simp only [mem_ways, List.mem_append, List.mem_singleton, Grid.mem_cellsBeside_comm (c := c)]
  constructor
  · rintro ⟨⟨a, ha | rfl, hb, rfl⟩, hx⟩
    · exact Or.inl ⟨⟨a, ha, hb, rfl⟩, hx⟩
    · exact Or.inr ⟨hb, rfl, hx⟩
  · rintro (⟨⟨a, ha, hb, rfl⟩, hx⟩ | ⟨hb, rfl, hx⟩)
    · exact ⟨⟨a, Or.inl ha, hb, rfl⟩, hx⟩
    · exact ⟨⟨d, Or.inr rfl, hb, rfl⟩, hx⟩

def Offers (distance : g.Cell → g.Cell → Float) (searched : List g.Cell) (s : State g) : Prop :=
  Offered (fun c x => x ∈ ways distance searched c) s

lemma Offers.extend (h : Offers distance searched s) (c : g.Cell) :
    Offers distance (searched ++ [c]) (s.extend distance c) :=
  (Offered.extend h distance c).congr fun _ _ _ => mem_ways_append.symm

lemma rank_least (h : Offers distance searched s) {c : g.Cell} (hc : c ∉ s.searched) {x b : Float}
    (hx : pick (fun x y => decide (x < y)) (ways distance searched c) = some x)
    (hb : s.best[c]? = some b) : Number.rank x = Number.rank b := by
  have hmem := pick_mem hx
  obtain ⟨hbw, -⟩ := h.waiting c b hc hb
  obtain ⟨b', hb', hxb⟩ := h.least c x hc hmem
  obtain rfl : b = b' := Option.some.inj (hb.symm.trans hb')
  have hmin := not_before_pick compares_lt
    (fun y hy => Number.rank_of_lt (h.finite c y hc hy)) hx b hbw
  exact Number.rank_eq (h.finite c x hc hmem) (h.finite c b hc hbw) hxb
    fun hlt => hmin (decide_eq_true hlt)

lemma exists_least (h : Offers distance searched s) {c : g.Cell} (hc : c ∉ s.searched) {b : Float}
    (hb : s.best[c]? = some b) :
    ∃ x, pick (fun x y => decide (x < y)) (ways distance searched c) = some x := by
  rcases hp : pick (fun x y => decide (x < y)) (ways distance searched c) with _ | x
  · obtain ⟨hbw, -⟩ := h.waiting c b hc hb
    rw [pick_eq_none.1 hp] at hbw
    simp at hbw
  · exact ⟨x, rfl⟩

lemma waiting_of_candidate (h : Offers distance searched s)
    (hs : ∀ c, c ∈ s.searched ↔ c ∈ searched) {m : Entry g}
    (hm : m ∈ candidates distance searched) :
    ∃ x ∈ s.frontier, x.cell = m.cell ∧ Number.rank x.distance = Number.rank m.distance := by
  obtain ⟨hms, hx⟩ := (mem_candidates distance).1 hm
  have hc : m.cell ∉ s.searched := fun hc => hms ((hs _).1 hc)
  obtain ⟨b, hb, -⟩ := h.least _ _ hc (pick_mem hx)
  exact ⟨⟨b, m.cell⟩, (h.waiting _ _ hc hb).2, rfl, (rank_least h hc hx hb).symm⟩

lemma key_candidate {m : Entry g} (hm : m ∈ candidates distance searched) :
    ∃ k, m.key = some k := by
  obtain ⟨-, hx⟩ := (mem_candidates distance).1 hm
  obtain ⟨r, hr⟩ := Number.rank_of_lt (mem_ways.1 (pick_mem hx)).2
  exact ⟨toLex (r, m.cell), key_eq_some.2 ⟨hr, rfl⟩⟩

lemma pick_nil (h : Offers distance searched s) (hs : ∀ c, c ∈ s.searched ↔ c ∈ searched)
    (hf : s.frontier = []) : pick nearer (candidates distance searched) = none := by
  refine pick_eq_none.2 (List.eq_nil_iff_forall_not_mem.2 fun m hm => ?_)
  obtain ⟨x, hx, -⟩ := waiting_of_candidate h hs hm
  rw [hf] at hx
  simp at hx

/-- **The first entry that is not old is the nearest candidate.** -/
lemma pick_head (h : Offers distance searched s) (hs : ∀ c, c ∈ s.searched ↔ c ∈ searched)
    (hf : s.frontier = e :: rest) (he : ¬ s.isStale e = true) :
    ∃ m, pick nearer (candidates distance searched) = some m ∧ m.cell = e.cell ∧
      Number.rank m.distance = Number.rank e.distance := by
  rw [isStale_iff, not_or] at he
  obtain ⟨hc, hbest⟩ := he
  -- the entry is at the best distance of its cell, which is a candidate
  obtain ⟨hfin, b, hb, heb⟩ := h.entries e (hf ▸ List.mem_cons_self) hc
  obtain ⟨x, hx⟩ := exists_least h hc hb
  have hreb : Number.rank e.distance = Number.rank b :=
    Number.rank_eq hfin (h.finite _ _ hc (h.waiting _ _ hc hb).1) heb
      fun hlt => hbest ⟨b, hb, hlt⟩
  have hrx : Number.rank x = Number.rank e.distance := (rank_least h hc hx hb).trans hreb.symm
  have hmem : (⟨x, e.cell⟩ : Entry g) ∈ candidates distance searched :=
    (mem_candidates distance).2 ⟨fun hin => hc ((hs _).2 hin), hx⟩
  obtain ⟨m, hm⟩ : ∃ m, pick nearer (candidates distance searched) = some m := by
    rcases hp : pick nearer (candidates distance searched) with _ | m
    · rw [pick_eq_none.1 hp] at hmem
      simp at hmem
    · exact ⟨m, rfl⟩
  -- neither the entry nor the nearest candidate comes before the other
  obtain ⟨r, hr⟩ := Number.rank_of_lt hfin
  have hke : e.key = some (toLex (r, e.cell)) := key_eq_some.2 ⟨hr, rfl⟩
  have hkx : (⟨x, e.cell⟩ : Entry g).key = some (toLex (r, e.cell)) :=
    key_eq_some.2 ⟨hrx.trans hr, rfl⟩
  obtain ⟨k, hkm⟩ := key_candidate (pick_mem hm)
  have hle : k ≤ toLex (r, e.cell) :=
    key_pick_le compares_nearer (fun a ha => key_candidate ha) hm hmem hkm hkx
  have hge : toLex (r, e.cell) ≤ k := by
    obtain ⟨y, hy, hyc, hyr⟩ := waiting_of_candidate h hs (pick_mem hm)
    have hky : y.key = some k := by
      rw [← hkm]
      simp only [Entry.key, hyc, hyr]
    have hsort : Sorted s.frontier := h.sorted
    rw [hf] at hy hsort
    exact hsort.key_head_le hy hke hky
  obtain rfl := le_antisymm hle hge
  obtain ⟨hmr, hmc⟩ := key_eq_some.1 hkm
  exact ⟨m, hm, hmc, hmr.trans hr.symm⟩

end SoundAtlas.Search
