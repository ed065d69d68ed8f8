import Mathlib
import SoundAtlas.Proofs.Search.Trace

/-!
How far a search reaches. A search ends at the first cell that is too far away, whichever way it got
there; but the cells it takes are those to which short steps lead, and no others. For the cell taken
next is the closest of all that may come next, so if even that is too far away, every step that
leads out of the cells searched is too long.
-/

namespace SoundAtlas

/-- A step that a search may take from a position to one beside it: the reference vectors there lie
at a distance below infinity that is not beyond the limit. -/
def Network.Step (n : Network) (limit : Option Float) (p r : Position) : Prop :=
  r ∈ n.grid.neighbors p ∧
    ∃ x, n.distance p r = .ok x ∧ x < 1.0 / 0.0 ∧ ∀ most, limit = some most → ¬ most < x

/-- Some steps, or none, lead from a position to another. -/
def Network.Reaches (n : Network) (limit : Option Float) : Position → Position → Prop :=
  Relation.ReflTransGen (n.Step limit)

namespace Search

variable {n : Network} {g : Grid} {index : EntityIndex} {q : Query} {id : Int}
  {distance : g.Cell → g.Cell → Float} {cells : List g.Cell} {limit : Option Float}

def CellStep (distance : g.Cell → g.Cell → Float) (limit : Option Float) (c d : g.Cell) : Prop :=
  d ∈ g.cellsBeside c ∧ distance c d < 1.0 / 0.0 ∧
    ¬ (limit.any fun most => most < distance c d) = true

/-! ### The closest cell, and the steps out of the cells searched -/

lemma exists_candidate {d : g.Cell} (hd : d ∉ cells) {w : Float}
    (hw : w ∈ ways distance cells d) :
    ∃ x, ⟨x, d⟩ ∈ candidates distance cells ∧ ¬ w < x := by
  rcases hp : pick (fun x y => decide (x < y)) (ways distance cells d) with _ | x
  · rw [pick_eq_none.1 hp] at hw
    simp at hw
  · have hmin := not_before_pick compares_lt
      (fun y hy => Number.rank_of_lt (mem_ways.1 hy).2) hp w hw
    exact ⟨x, (mem_candidates distance).2 ⟨hd, hp⟩, by simpa using hmin⟩

/-- **No step out of the cells searched is shorter than that to the next cell.** -/
lemma not_shorter {e : Entry g} (he : pick nearer (candidates distance cells) = some e)
    {d : g.Cell} (hd : d ∉ cells) {w : Float} (hw : w ∈ ways distance cells d) :
    ¬ w < e.distance := by
  obtain ⟨x, hx, hwx⟩ := exists_candidate hd hw
  obtain ⟨r, hr⟩ : ∃ r, Number.rank x = some r := by
    obtain ⟨-, hpx⟩ := (mem_candidates distance).1 hx
    exact Number.rank_of_lt (mem_ways.1 (pick_mem hpx)).2
  have hxe : ¬ x < e.distance := fun hlt =>
    not_before_pick compares_nearer (fun a ha => key_candidate ha) he _ hx (by simp [nearer, hlt])
  intro hwe
  have hwx' := compares_lt.trans_not (a := w) (b := e.distance) (c := x) (by simpa using hwe)
    (by simpa using hxe) hr
  exact hwx (by simpa using hwx')

/-! ### Where the expansion gets to -/

/-- **Only steps lead to a cell.** -/
lemma reached_of_mem {c : g.Cell} (hc : c ∈ expandAll distance index q cells) :
    ∃ s ∈ cells, Relation.ReflTransGen (CellStep distance q.maxDistance) s c := by
  induction cells using expandAll.induct distance index q with
  | case1 cells hfull =>
    rw [expandAll_of_full hfull] at hc
    exact ⟨c, hc, .refl⟩
  | case2 cells hfull hnone =>
    rw [expandAll_of_none hnone] at hc
    exact ⟨c, hc, .refl⟩
  | case3 cells hfull e he hb =>
    rw [expandAll_of_pick hfull he, if_pos hb] at hc
    exact ⟨c, hc, .refl⟩
  | case4 cells hfull e he hb ih =>
    rw [expandAll_of_pick hfull he, if_neg hb] at hc
    obtain ⟨s, hs, hsc⟩ := ih hc
    rcases List.mem_append.1 hs with hs | hs
    · exact ⟨s, hs, hsc⟩
    -- the new cell lies one step from a cell searched before
    · rw [List.mem_singleton] at hs
      subst hs
      obtain ⟨-, hx⟩ := (mem_candidates distance).1 (pick_mem he)
      obtain ⟨⟨d, hd, hbeside, hdist⟩, hlt⟩ := mem_ways.1 (pick_mem hx)
      rw [hdist] at hlt hb
      exact ⟨d, hd, hsc.head ⟨Grid.mem_cellsBeside_comm.1 hbeside, hlt, hb⟩⟩

/-- **A search that has not had enough leaves no step open.** -/
lemma mem_of_step (hfull : ¬ q.maxCount ≤ (found index q (expandAll distance index q cells)).length)
    {c d : g.Cell} (hc : c ∈ expandAll distance index q cells)
    (hstep : CellStep distance q.maxDistance c d) : d ∈ expandAll distance index q cells := by
  induction cells using expandAll.induct distance index q with
  | case1 cells henough =>
    rw [expandAll_of_full henough] at hfull
    exact absurd henough hfull
  | case2 cells _ hnone =>
    rw [expandAll_of_none hnone] at hc ⊢
    obtain ⟨hbeside, hlt, -⟩ := hstep
    by_contra hd
    obtain ⟨x, hx, -⟩ := exists_candidate hd
      (mem_ways.2 ⟨⟨c, hc, Grid.mem_cellsBeside_comm.1 hbeside, rfl⟩, hlt⟩)
    rw [pick_eq_none.1 hnone] at hx
    simp at hx
  | case3 cells hroom e he hb =>
    rw [expandAll_of_pick hroom he, if_pos hb] at hc ⊢
    obtain ⟨hbeside, hlt, hnear⟩ := hstep
    by_contra hd
    have hshort := not_shorter he hd
      (mem_ways.2 ⟨⟨c, hc, Grid.mem_cellsBeside_comm.1 hbeside, rfl⟩, hlt⟩)
    obtain ⟨most, hmost, hbeyond⟩ := (Option.any_eq_true _ _).1 hb
    obtain ⟨r, hr⟩ := Number.rank_of_lt hlt
    have hfar :=
      compares_lt.trans_not (a := most) (by simpa using hbeyond) (by simpa using hshort) hr
    exact hnear ((Option.any_eq_true _ _).2 ⟨most, hmost, hfar⟩)
  | case4 cells hroom e he hb ih =>
    rw [expandAll_of_pick hroom he, if_neg hb] at hfull hc ⊢
    exact ih hfull hc

/-- **The cells of a search that has not had enough** are those to which steps lead. -/
lemma mem_expandAll
    (hfull : ¬ q.maxCount ≤ (found index q (expandAll distance index q cells)).length)
    {c : g.Cell} : c ∈ expandAll distance index q cells ↔
      ∃ s ∈ cells, Relation.ReflTransGen (CellStep distance q.maxDistance) s c := by
  refine ⟨reached_of_mem, ?_⟩
  rintro ⟨s, hs, hsc⟩
  induction hsc with
  | refl => exact (prefix_expandAll cells).subset hs
  | tail _ hstep ih => exact mem_of_step hfull ih hstep

/-! ### Cells and positions -/

lemma distance_position (hn : n.state = .trained) (c d : n.Cell) :
    n.distance (n.grid.position c) (n.grid.position d) = .ok (n.cellDistance c d) := by
  unfold Network.distance Network.requireTrained Network.cellAt
  rw [if_pos hn, Grid.cell?_position, Grid.cell?_position]
  rfl

lemma step_position (hn : n.state = .trained) {c : n.Cell} {p : Position} :
    n.Step limit (n.grid.position c) p ↔
      ∃ d, CellStep n.cellDistance limit c d ∧ n.grid.position d = p := by
  unfold Network.Step CellStep
  constructor
  · rintro ⟨hp, x, hx, hlt, hnear⟩
    obtain ⟨hbeside, hin⟩ := Grid.mem_neighbors.1 hp
    obtain ⟨d, rfl⟩ := Grid.exists_position hin
    obtain rfl : n.cellDistance c d = x := Except.ok.inj ((distance_position hn c d).symm.trans hx)
    exact ⟨d, ⟨Grid.mem_cellsBeside.2 hbeside, hlt, by simpa [Option.any_eq_true] using hnear⟩, rfl⟩
  · rintro ⟨d, ⟨hbeside, hlt, hnear⟩, rfl⟩
    exact ⟨Grid.mem_neighbors.2 ⟨Grid.mem_cellsBeside.1 hbeside, Grid.contains_position d⟩, _,
      distance_position hn c d, hlt, by simpa [Option.any_eq_true] using hnear⟩

lemma reaches_position (hn : n.state = .trained) {c : n.Cell} {p : Position} :
    n.Reaches limit (n.grid.position c) p ↔
      ∃ d, Relation.ReflTransGen (CellStep n.cellDistance limit) c d ∧ n.grid.position d = p := by
  constructor
  · intro h
    induction h with
    | refl => exact ⟨c, .refl, rfl⟩
    | tail _ hstep ih =>
      obtain ⟨d, hd, rfl⟩ := ih
      obtain ⟨e, he, rfl⟩ := (step_position hn).1 hstep
      exact ⟨e, hd.tail he, rfl⟩
  · rintro ⟨d, hd, rfl⟩
    exact hd.lift _ fun a b hab => (step_position hn).2 ⟨b, hab, rfl⟩

/-- **Without a limit, and at distances below infinity, every position is reached from every
other.** -/
lemma reaches_of_finite
    (hfinite : ∀ p r, n.grid.Contains p → r ∈ n.grid.neighbors p →
      ∃ x, n.distance p r = .ok x ∧ x < 1.0 / 0.0)
    {p r : Position} (hp : n.grid.Contains p) (hr : n.grid.Contains r) : n.Reaches none p r := by
  have hpath := Grid.connected hp hr
  clear hr
  suffices h : n.grid.Contains r ∧ n.Reaches none p r from h.2
  induction hpath with
  | refl => exact ⟨hp, .refl⟩
  | tail _ hbeside ih =>
    obtain ⟨hin, hreach⟩ := ih
    obtain ⟨x, hx, hlt⟩ := hfinite _ _ hin hbeside
    exact ⟨(Grid.mem_neighbors.1 hbeside).2, hreach.tail ⟨hbeside, x, hx, hlt, by simp⟩⟩

/-! ### What a search finds -/

/-- An entity is in reach of a search: from a position of an entity asked for, steps lead to one of
its own. -/
def InReach (n : Network) (index : EntityIndex) (q : Query) (id : Int) : Prop :=
  ∃ start ∈ q.ids, ∃ p ∈ index.positionsOf start, ∃ r ∈ index.positionsOf id,
    n.Reaches q.maxDistance p r

lemma inReach_iff (hn : n.state = .trained) (h : index.OnGrid n.grid) : InReach n index q id ↔
    ∃ s ∈ startCells n.grid index q.ids, ∃ c, n.grid.position c ∈ index.positionsOf id ∧
      Relation.ReflTransGen (CellStep n.cellDistance q.maxDistance) s c := by
  constructor
  · rintro ⟨start, hstart, p, hp, r, hr, hreach⟩
    obtain ⟨s, rfl⟩ := Grid.exists_position (h.places _ _ hp)
    obtain ⟨c, hsc, rfl⟩ := (reaches_position hn).1 hreach
    exact ⟨s, mem_startCells.2 (mem_startPositions.2 ⟨start, hstart, hp⟩), c, hr, hsc⟩
  · rintro ⟨s, hs, c, hid, hsc⟩
    obtain ⟨start, hstart, hp⟩ := exists_of_startCells hs
    exact ⟨start, hstart, _, hp, _, hid, (reaches_position hn).2 ⟨c, hsc, rfl⟩⟩

/-- **The plain expansion finds what is in reach**, if it ends before it has had enough or asks for
no fewer entities than there are. -/
lemma mem_greedy (hn : n.state = .trained) (h : index.Faithful n.grid)
    (henough : (index.count : Int) ≤ q.maxCount ∨ ((greedy n index q).length : Int) < q.maxCount) :
    id ∈ greedy n index q ↔ (q.accept id = true ∧ id ∉ q.ids) ∧ InReach n index q id := by
  rw [inReach_iff hn h.toOnGrid]
  by_cases hs : startCells n.grid index q.ids = []
  · have hnone : greedy n index q = [] := by
      rw [greedy, hs, expandAll_nil]
      exact List.take_nil
    simp [hnone, hs]
  · have hfull : ¬ q.maxCount ≤ (greedy n index q).length := by
      rcases henough with hall | hfew
      · exact not_full h hall hs _
      · omega
    rw [greedy, mem_found h hfull]
    refine and_congr_right fun _ => ?_
    simp only [mem_expandAll hfull]
    exact ⟨fun ⟨c, ⟨s, hs, hsc⟩, hid⟩ => ⟨s, hs, c, hid, hsc⟩,
      fun ⟨s, hs, c, hid, hsc⟩ => ⟨c, ⟨s, hs, hsc⟩, hid⟩⟩

/-- **The reach of a search.** If it asks for no fewer entities than the index has, or finds fewer
than it asks for, then it has found exactly the accepted entities in reach. Without a limit, and at
distances below infinity, these are all the accepted ones, once one of those asked for is in the
index. -/
theorem mem_findSimilar_iff (n : Network) (index : EntityIndex) (q : Query)
    (hn : n.state = .trained) (h : index.Faithful n.grid) :
    ∃ ids, findSimilar n index q = .ok ids ∧
      ((index.count : Int) ≤ q.maxCount ∨ (ids.length : Int) < q.maxCount →
        (∀ id, id ∈ ids ↔ (q.accept id = true ∧ id ∉ q.ids) ∧ InReach n index q id) ∧
        (q.maxDistance = none →
          (∀ p r, n.grid.Contains p → r ∈ n.grid.neighbors p →
            ∃ x, n.distance p r = .ok x ∧ x < 1.0 / 0.0) →
          (∃ start ∈ q.ids, start ∈ index.ids) →
          ∀ id, id ∈ ids ↔ (q.accept id = true ∧ id ∉ q.ids) ∧ id ∈ index.ids)) := by
  refine ⟨_, findSimilar_greedy hn h.toOnGrid q, fun henough => ?_⟩
  refine ⟨fun id => mem_greedy hn h henough, ?_⟩
  rintro hnone hfinite ⟨start, hstart, hrecorded⟩ id
  rw [mem_greedy hn h henough]
  refine and_congr_right fun _ => ?_
  constructor
  · rintro ⟨_, _, _, _, r, hr, _⟩
    exact (h.ids id).2 ⟨r, hr⟩
  · intro hid
    obtain ⟨p, hp⟩ := (h.ids start).1 hrecorded
    obtain ⟨r, hr⟩ := (h.ids id).1 hid
    refine ⟨start, hstart, p, hp, r, hr, ?_⟩
    rw [hnone]
    exact reaches_of_finite hfinite (h.places _ _ hp) (h.places _ _ hr)

lemma finite_square (p r : Position) (hp : square.grid.Contains p)
    (hr : r ∈ square.grid.neighbors p) : ∃ x, square.distance p r = .ok x ∧ x < 1.0 / 0.0 := by
  have hcells : ∀ c ∈ square.grid.cells, ∀ d ∈ square.grid.cells,
      square.cellDistance c d < 1.0 / 0.0 := by decide +kernel
  obtain ⟨c, rfl⟩ := Grid.exists_position hp
  obtain ⟨d, rfl⟩ := Grid.exists_position (Grid.mem_neighbors.1 hr).2
  exact ⟨_, distance_position rfl c d, hcells c (List.mem_finRange c) d (List.mem_finRange d)⟩

theorem mem_findSimilar_square :
    let q : Query := ⟨[1], 4, fun id => id ≠ 4, none⟩
    ∃ ids, findSimilar square squareIndex q = .ok ids ∧ ∀ id,
      (id ∈ ids ↔ (q.accept id = true ∧ id ∉ q.ids) ∧ InReach square squareIndex q id) ∧
      (id ∈ ids ↔ (q.accept id = true ∧ id ∉ q.ids) ∧ id ∈ squareIndex.ids) := by
  intro q
  obtain ⟨ids, hids, hall⟩ := mem_findSimilar_iff square squareIndex q rfl faithful_squareIndex
  have hcount : (squareIndex.count : Int) ≤ q.maxCount := by decide +kernel
  have hstart : (1 : Int) ∈ squareIndex.ids := by decide +kernel
  obtain ⟨hreach, hrecorded⟩ := hall (.inl hcount)
  exact ⟨ids, hids, fun id =>
    ⟨hreach id, hrecorded rfl finite_square ⟨1, List.mem_singleton_self 1, hstart⟩ id⟩⟩

end Search

end SoundAtlas
