import Mathlib.Data.List.Perm.Basic
import Mathlib.Data.List.Sort
import Mathlib.Data.Set.List
import SoundAtlas.Proofs.Index.OnGrid
import SoundAtlas.Proofs.Search.Harvest
import SoundAtlas.Proofs.Search.Nearest

/-!
The search for similar entities finds what the plain expansion finds. The first cells are visited
row by row; then, in whatever order they do it, they offer the cells beside them, and every step of
the search either skips an old entry or searches the cell that the plain expansion takes next.
-/

namespace SoundAtlas.Search

variable {g : Grid} {index : EntityIndex} {q : Query} {s : State g} {cells : List g.Cell}

/-- A search that has visited the given cells, in this order. -/
structure Visited (index : EntityIndex) (q : Query) (cells : List g.Cell) (s : State g) : Prop where
  harvested : Harvested q (cells.flatMap (entitiesIn index)) s
  searched : ∀ c, c ∈ s.searched ↔ c ∈ cells

lemma Visited.isFull_iff (h : Visited index q cells s) :
    s.isFull q = true ↔ q.maxCount ≤ (found index q cells).length :=
  h.harvested.isFull_iff

lemma Visited.cell (h : Visited index q cells s) {c : g.Cell} {entities : Std.ExtTreeSet Int}
    (he : index.entitiesAt? (g.position c) = some entities) :
    Visited index q (cells ++ [c]) ((s.mark c).meetAll q entities) where
  harvested := by
    have hin : entitiesIn index c = entities.toList := by
      rw [entitiesIn, he, Option.getD_some]
    have hmark : Harvested q (cells.flatMap (entitiesIn index)) (s.mark c) :=
      h.harvested.congr rfl rfl
    rw [List.flatMap_append, List.flatMap_singleton, hin]
    exact hmark.meetAll entities
  searched d := by
    rw [State.searched_meetAll, State.mark, Std.ExtTreeSet.mem_insert, h.searched,
      List.mem_append, List.mem_singleton, Std.LawfulEqOrd.compare_eq_iff_eq]
    tauto

lemma Visited.extend (h : Visited index q cells s) (distance : g.Cell → g.Cell → Float)
    (c : g.Cell) : Visited index q cells (s.extend distance c) where
  harvested := h.harvested.congr (extend_frame distance s c).1 (extend_frame distance s c).2
  searched d := by rw [State.searched_extend, h.searched]

/-! ### The first cells -/

lemma mem_startPositions {ids : List Int} {p : Position} :
    p ∈ startPositions index ids ↔ ∃ id ∈ ids, p ∈ index.positionsOf id := by
  suffices h : ∀ ps : PositionSet, p ∈ ids.foldl (fun ps id => ps ∪ index.positionsOf id) ps ↔
      p ∈ ps ∨ ∃ id ∈ ids, p ∈ index.positionsOf id by
    have h0 := h ∅
    simp only [Std.ExtTreeSet.not_mem_empty, false_or] at h0
    exact h0
  induction ids with
  | nil => simp
  | cons id ids ih =>
    intro ps
    rw [List.foldl_cons, ih, Std.ExtTreeSet.mem_union_iff, or_assoc]
    simp

lemma mem_startCells {ids : List Int} {c : g.Cell} :
    c ∈ startCells g index ids ↔ g.position c ∈ startPositions index ids := by
  rw [mem_startPositions]
  simp [startCells, Grid.cells]

/-- Whether a position stands before another, or is the same, if positions are read row by row. -/
def atOrBefore (p r : Position) : Bool :=
  decide (p.y < r.y ∨ (p.y = r.y ∧ p.x ≤ r.x))

lemma atOrBefore_iff {p r : Position} :
    atOrBefore p r = true ↔ p.y < r.y ∨ p.y = r.y ∧ p.x ≤ r.x :=
  decide_eq_true_iff

lemma atOrBefore_antisymm {p r : Position} (hpr : atOrBefore p r = true)
    (hrp : atOrBefore r p = true) : p = r := by
  rw [atOrBefore_iff] at hpr hrp
  obtain ⟨x, y⟩ := p
  obtain ⟨x', y'⟩ := r
  simp only [Position.mk.injEq]
  simp only at hpr hrp
  omega

lemma pairwise_rowByRow (order : List Position) :
    (rowByRow order).Pairwise fun p r => atOrBefore p r = true := by
  refine List.pairwise_mergeSort (fun a b c hab hbc => ?_) (fun a b => ?_) order
  · rw [atOrBefore_iff] at *
    omega
  · rw [Bool.or_eq_true, atOrBefore_iff, atOrBefore_iff]
    omega

lemma pairwise_startCells (ids : List Int) :
    ((startCells g index ids).map g.position).Pairwise fun p r => atOrBefore p r = true := by
  refine List.pairwise_map.2 ((List.pairwise_lt_finRange _).filter _ |>.imp fun hlt => ?_)
  rw [atOrBefore_iff]
  have := Grid.lt_iff_position.1 hlt
  omega

lemma startPositions_perm (h : index.OnGrid g) (ids : List Int) :
    (startPositions index ids).toList.Perm ((startCells g index ids).map g.position) := by
  have hnodup : (startPositions index ids).toList.Nodup :=
    Std.ExtTreeSet.distinct_toList.imp fun hne heq =>
      hne (Std.LawfulEqOrd.compare_eq_iff_eq.2 heq)
  have hcells : ((startCells g index ids).map g.position).Nodup :=
    ((List.nodup_finRange _).filter _).map Grid.position_injective
  refine (List.perm_ext_iff_of_nodup hnodup hcells).2 fun p => ?_
  rw [Std.ExtTreeSet.mem_toList, List.mem_map]
  constructor
  · intro hp
    obtain ⟨id, -, hid⟩ := mem_startPositions.1 hp
    obtain ⟨c, rfl⟩ := Grid.exists_position (h.places id p hid)
    exact ⟨c, mem_startCells.2 hp, rfl⟩
  · rintro ⟨c, hc, rfl⟩
    exact mem_startCells.1 hc

/-- **The first positions, row by row, are those of the first cells.** -/
lemma rowByRow_eq (h : index.OnGrid g) {ids : List Int} {order : List Position}
    (ho : order.Perm (startPositions index ids).toList) :
    rowByRow order = (startCells g index ids).map g.position := by
  have hperm : (rowByRow order).Perm ((startCells g index ids).map g.position) :=
    ((List.mergeSort_perm _ _).trans ho).trans (startPositions_perm h ids)
  exact hperm.eq_of_pairwise (fun p r _ _ hpr hrp => atOrBefore_antisymm hpr hrp)
    (pairwise_rowByRow order) (pairwise_startCells ids)

/-- **The visits of the first cells** find what is in them, and offer nothing. -/
lemma visitAll (h : index.OnGrid g) (hv : Visited index q cells s)
    (ho : Offered (fun _ _ => False) s) (ds : List g.Cell) :
    ∃ t, (ds.map g.position).foldlM (visit index q) s = .ok t ∧
      Visited index q (cells ++ ds) t ∧ Offered (fun _ _ => False) t := by
  induction ds generalizing cells s with
  | nil => exact ⟨s, rfl, by simpa using hv, ho⟩
  | cons d ds ih =>
    obtain ⟨entities, he⟩ := h.entitiesAt? d
    have hstep : visit index q s (g.position d) = .ok ((s.mark d).meetAll q entities) := by
      unfold visit
      rw [he, Grid.cell?_position]
    have hoff : Offered (fun _ _ => False) ((s.mark d).meetAll q entities) := by
      obtain ⟨hf, hb⟩ := meetAll_frame q (s.mark d) entities
      refine ho.searched_mono hf hb fun c hc hcs => hc ?_
      rw [State.searched_meetAll]
      exact Std.ExtTreeSet.mem_insert.2 (Or.inr hcs)
    obtain ⟨t, ht, hvt, hot⟩ := ih (hv.cell he) hoff
    refine ⟨t, ?_, by simpa using hvt, hot⟩
    rw [List.map_cons, List.foldlM_cons, hstep]
    exact ht

/-! ### The first offers -/

variable {distance : g.Cell → g.Cell → Float}

lemma Offers.congr_mem {others : List g.Cell} (h : Offers distance cells s)
    (hc : ∀ c, c ∈ cells ↔ c ∈ others) : Offers distance others s :=
  Offered.congr h fun c x _ => by simp only [mem_ways, hc]

lemma Offers.all_searched (h : Offers distance cells s) {c : g.Cell}
    (hc : (g.cellsBeside c).all s.searched.contains = true) :
    Offers distance (cells ++ [c]) s := by
  refine Offered.congr h fun d x hd => ?_
  rw [mem_ways_append]
  refine ⟨Or.inl, fun hx => hx.resolve_right ?_⟩
  rintro ⟨hdc, -⟩
  exact hd (List.all_eq_true.1 hc d hdc)

/-- **The first cells offer those beside them**, in any order. -/
lemma seedAll (n : Network) (hn : n.state = .trained) {done : List n.Cell} {s : State n.grid}
    {cells : List n.Cell} (hv : Visited index q cells s)
    (ho : Offers n.cellDistance done s) (ds : List n.Cell) :
    ∃ t, (ds.map n.grid.position).foldlM (seed n) s = .ok t ∧
      Visited index q cells t ∧ Offers n.cellDistance (done ++ ds) t := by
  induction ds generalizing done s with
  | nil => exact ⟨s, rfl, hv, by simpa using ho⟩
  | cons d ds ih =>
    obtain ⟨t, hstep, hvt, hot⟩ : ∃ t, seed n s (n.grid.position d) = .ok t ∧
        Visited index q cells t ∧ Offers n.cellDistance (done ++ [d]) t := by
      unfold seed
      split
      · rename_i hall
        exact ⟨s, rfl, hv, ho.all_searched hall⟩
      · have hr : n.requireTrained = .ok () := by rw [Network.requireTrained, if_pos hn]
        have hc : n.cellAt (n.grid.position d) = .ok d := by
          rw [Network.cellAt, Grid.cell?_position]
        rw [hr, hc]
        exact ⟨_, rfl, hv.extend _ d, ho.extend d⟩
    obtain ⟨u, hu, hvu, hou⟩ := ih hvt hot
    refine ⟨u, ?_, hvu, by simpa using hou⟩
    rw [List.map_cons, List.foldlM_cons, hstep]
    exact hu

/-! ### One cell after the other -/

lemma isBeyond_eq_any (x : Float) :
    q.isBeyond x = q.maxDistance.any fun limit => limit < x := by
  unfold Query.isBeyond
  cases q.maxDistance <;> rfl

lemma isBeyond_congr {x y : Float} (h : Number.rank x = Number.rank y) :
    q.isBeyond x = q.isBeyond y := by
  unfold Query.isBeyond
  split
  · rw [Bool.eq_iff_iff, decide_eq_true_eq, decide_eq_true_eq, Number.lt_congr_rank h]
  · rfl

lemma run_of_nil (hf : s.frontier = []) : run index distance q s = .ok s := by
  unfold run
  split
  · rfl
  · split
    · rfl
    · rename_i hc
      rw [hf] at hc
      simp at hc

lemma run_of_cons {e : Entry g} {rest : Frontier g} (hn : ¬ s.isFull q = true)
    (hf : s.frontier = e :: rest) : run index distance q s =
      if s.isStale e then run index distance q { s with frontier := rest }
      else if q.isBeyond e.distance then .ok { s with frontier := rest }
      else expand index distance q { s with frontier := rest } e.cell >>=
        run index distance q := by
  rw [run, if_neg hn]
  split
  · rename_i hc
    rw [hf] at hc
    simp at hc
  · rename_i e' rest' hc
    rw [hf] at hc
    obtain ⟨rfl, rfl⟩ := List.cons.inj hc
    refine ite_congr rfl (fun _ => rfl) fun _ => ite_congr rfl (fun _ => rfl) fun _ => ?_
    split <;> rename_i he <;> rw [he] <;> rfl

/-- A cell taken from the frontier is visited, and those beside it are offered. -/
lemma expand_next (h : index.OnGrid g) (hv : Visited index q cells s)
    (ho : Offers distance cells s) {e : Entry g} {rest : Frontier g}
    (hf : s.frontier = e :: rest) :
    ∃ t, expand index distance q { s with frontier := rest } e.cell = .ok t ∧
      Visited index q (cells ++ [e.cell]) t ∧ Offers distance (cells ++ [e.cell]) t := by
  obtain ⟨entities, he⟩ := h.entitiesAt? e.cell
  have hv' : Visited index q cells { s with frontier := rest } :=
    ⟨hv.harvested.congr rfl rfl, hv.searched⟩
  have htake := Offered.take ho hf
  have hmet : Offers distance cells
      ((({ s with frontier := rest } : State g).mark e.cell).meetAll q entities) := by
    obtain ⟨hfr, hb⟩ :=
      meetAll_frame q (({ s with frontier := rest } : State g).mark e.cell) entities
    exact htake.searched_mono hfr hb fun c hc => by rwa [State.searched_meetAll] at hc
  refine ⟨_, ?_, (hv'.cell he).extend distance e.cell, hmet.extend e.cell⟩
  rw [expand, he]

/-- **A search from any state in which it has visited some cells and offered those beside them**
finds what the plain expansion finds from these cells. -/
lemma run_eq (h : index.OnGrid g) (hv : Visited index q cells s)
    (ho : Offers distance cells s) :
    ∃ t, run index distance q s = .ok t ∧
      t.results = found index q (expandAll distance index q cells) := by
  induction s using run.induct index distance q generalizing cells with
  | case1 s hfull =>
    rw [run, if_pos hfull, expandAll_of_full (hv.isFull_iff.1 hfull)]
    exact ⟨s, rfl, hv.harvested.results⟩
  | case2 s hfull hf =>
    rw [run_of_nil hf, expandAll_of_none (pick_nil ho hv.searched hf)]
    exact ⟨s, rfl, hv.harvested.results⟩
  | case3 s hfull e rest hf hs ih =>
    -- an old entry: the plain expansion takes no step
    rw [run_of_cons hfull hf, if_pos hs]
    exact ih ⟨hv.harvested.congr rfl rfl, hv.searched⟩ (ho.skip hf hs)
  | case4 s hfull e rest hf hs hb =>
    obtain ⟨m, hm, -, hr⟩ := pick_head ho hv.searched hf hs
    rw [run_of_cons hfull hf, if_neg hs, if_pos hb,
      expandAll_of_pick (mt hv.isFull_iff.2 hfull) hm, if_pos]
    · exact ⟨_, rfl, hv.harvested.results⟩
    · rwa [← isBeyond_eq_any, isBeyond_congr hr]
  | case5 s hfull e rest hf hs hb err he =>
    obtain ⟨t, ht, -⟩ := expand_next h hv ho hf
    rw [he] at ht
    simp at ht
  | case6 s hfull e rest hf hs hb t he ih =>
    obtain ⟨m, hm, hc, hr⟩ := pick_head ho hv.searched hf hs
    obtain ⟨t', ht', hv', ho'⟩ := expand_next h hv ho hf
    obtain rfl : t = t' := Except.ok.inj (he.symm.trans ht')
    rw [run_of_cons hfull hf, if_neg hs, if_neg hb, he,
      expandAll_of_pick (mt hv.isFull_iff.2 hfull) hm, if_neg, hc]
    · exact ih hv' ho'
    · rwa [← isBeyond_eq_any, isBeyond_congr hr]

/-! ### The whole search -/

lemma visited_start (index : EntityIndex) (q : Query) :
    Visited index q [] (State.start g q.ids) where
  harvested := harvested_start q
  searched c := by simp [State.start]

lemma exists_order (h : index.OnGrid g) {ids : List Int} {order : List Position}
    (ho : order.Perm (startPositions index ids).toList) :
    ∃ ds : List g.Cell, ds.map g.position = order ∧ ∀ c, c ∈ ds ↔ c ∈ startCells g index ids := by
  have hperm : ((startCells g index ids).map g.position).Perm order :=
    (ho.trans (startPositions_perm h ids)).symm
  have hrange : order ∈ Set.range (List.map (g.position)) := by
    rw [Set.range_list_map]
    intro p hp
    obtain ⟨c, -, hc⟩ := List.mem_map.1 (hperm.mem_iff.2 hp)
    exact ⟨c, hc⟩
  obtain ⟨ds, rfl⟩ := hrange
  refine ⟨ds, rfl, fun c => ?_⟩
  exact ((List.map_perm_map_iff Grid.position_injective).1 hperm).mem_iff.symm

lemma searchFrom_eq {n : Network} (hn : n.state = .trained) (h : index.OnGrid n.grid)
    (q : Query) {order : List Position} (ho : order.Perm (startPositions index q.ids).toList) :
    (searchFrom n index q order).map (·.results) = .ok (greedy n index q) := by
  obtain ⟨ds, rfl, hmem⟩ := exists_order h ho
  obtain ⟨s, hs, hvs, hos⟩ := visitAll h (visited_start index q) (offered_start q.ids)
    (startCells n.grid index q.ids)
  have hnone : Offers n.cellDistance [] s := hos.congr fun c x _ => by simp [mem_ways]
  obtain ⟨t, ht, hvt, hot⟩ := seedAll n hn hvs hnone ds
  obtain ⟨u, hu, hres⟩ := run_eq h hvt (hot.congr_mem hmem)
  calc (searchFrom n index q (ds.map n.grid.position)).map (·.results)
      = (run index n.cellDistance q t).map (·.results) := by
        unfold searchFrom
        rw [rowByRow_eq h ho, hs]
        change ((ds.map n.grid.position).foldlM (seed n) s >>= _).map _ = _
        rw [ht]
        rfl
    _ = .ok u.results := by rw [hu]; rfl
    _ = .ok (greedy n index q) := by rw [hres]; rfl

/-- A search finds what the plain expansion finds, also if no entities are asked for. -/
lemma findSimilar_greedy {n : Network} (hn : n.state = .trained) (h : index.OnGrid n.grid)
    (q : Query) : findSimilar n index q = .ok (greedy n index q) := by
  unfold findSimilar search
  split
  · rename_i hq
    have hnone : greedy n index q = [] := by
      unfold greedy found harvest
      rw [Int.toNat_of_nonpos hq, List.take_zero]
    rw [hnone]
    rfl
  · exact searchFrom_eq hn h q (List.Perm.refl _)

/-- **The search finds what the plain expansion finds**: the same entities in the same order, in
whatever order the first cells offer those beside them. -/
theorem findSimilar_eq_greedy (n : Network) (index : EntityIndex) (q : Query)
    (hn : n.state = .trained) (h : index.OnGrid n.grid) (hq : 1 ≤ q.maxCount) :
    findSimilar n index q = .ok (greedy n index q) ∧
      ∀ order : List Position, order.Perm (startPositions index q.ids).toList →
        (searchFrom n index q order).map (·.results) = .ok (greedy n index q) := by
  refine ⟨?_, fun order ho => searchFrom_eq hn h q ho⟩
  unfold findSimilar search
  rw [if_neg (by omega)]
  exact searchFrom_eq hn h q (List.Perm.refl _)

/-- Four cells in a square, the lower two close to the upper two. -/
def square : Network where
  grid := ⟨2, 2⟩
  dimensions := 1
  width_pos := by decide
  height_pos := by decide
  dimensions_pos := by decide
  references := #v[#v[0.0], #v[5.0], #v[1.0], #v[6.0]].map Number.bits
  weights := Number.bits #v[1.0]
  state := .trained
  initialRate := Network.defaultRate
  finalRadius := Network.defaultRadius

lemma trained_square : square.state = .trained := rfl

/-- An entity in each cell of the square, and one in two of them. -/
def squareIndex : EntityIndex :=
  [(1, ⟨0, 0⟩), (2, ⟨1, 0⟩), (3, ⟨0, 1⟩), (4, ⟨1, 1⟩), (2, ⟨0, 1⟩)].foldl
    (fun index place => (index.add place.1 place.2).2) (EntityIndex.empty 2 2)

lemma onGrid_squareIndex : squareIndex.OnGrid square.grid := by
  have h : (EntityIndex.empty 2 2).OnGrid square.grid := EntityIndex.onGrid_empty square.grid
  exact ((((h.add (by decide) 1).add (by decide) 2).add (by decide) 3).add (by decide) 4).add
    (by decide) 2

theorem findSimilar_square :
    let q : Query := ⟨[1], 3, fun id => id ≠ 4, some 4.5⟩
    findSimilar square squareIndex q = .ok (greedy square squareIndex q) ∧
      ∀ order : List Position, order.Perm (startPositions squareIndex q.ids).toList →
        (searchFrom square squareIndex q order).map (·.results) =
          .ok (greedy square squareIndex q) :=
  findSimilar_eq_greedy square squareIndex _ rfl onGrid_squareIndex (by decide)

end SoundAtlas.Search
