import SoundAtlas.Network.Distance
import SoundAtlas.Proofs.Grid.Rows
import SoundAtlas.Proofs.Numeric.Selection

/-!
What a network says of distances. The position closest to a vector is the first, row by row, of
those whose cells are closest; and the median is that of the distances of all cells side by side,
each pair taken once.
-/

namespace SoundAtlas.Network

open Number (standing)

/-! ### The closest cell -/

/-- **The closest cell** is the first of those whose distances stand lowest. -/
lemma Shape.exists_closestCell (s : Shape) (weights : s.Stored) (references : s.References)
    (sample : s.Sample) {distance : s.Cell → Float}
    (hd : ∀ c, s.sampleDistance weights references sample c = distance c) :
    ∃ before closest after, s.closestCell weights references sample = closest ∧
      s.grid.cells = before ++ closest :: after ∧
      (∀ c, standing (distance closest) ≤ standing (distance c)) ∧
      ∀ c ∈ before, standing (distance closest) < standing (distance c) := by
  unfold closestCell
  simp only [hd]
  obtain ⟨best, cs, hcells⟩ :
      ∃ best cs, s.grid.cells.map (fun c => (c, distance c)) = best :: cs := by
    refine List.exists_cons_of_ne_nil fun hnil => ?_
    have hlen := congrArg List.length hnil
    simp only [List.length_map, Grid.cells, List.length_finRange, List.length_nil] at hlen
    exact s.size_pos.ne' hlen
  rw [hcells]
  obtain ⟨before, after, hsplit, hleast, hfirst⟩ := Numeric.exists_leader best cs
  rw [← hcells] at hsplit hleast
  obtain ⟨before, rest, hcells, rfl, hrest⟩ := List.map_eq_append_iff.1 hsplit
  obtain ⟨closest, after, rfl, hclosest, -⟩ := List.map_eq_cons_iff.1 hrest
  rw [← hclosest] at hleast hfirst
  dsimp only
  rw [← hclosest]
  refine ⟨before, closest, after, rfl, hcells, fun c => ?_, fun c hc => ?_⟩
  · exact hleast (c, distance c) (List.mem_map_of_mem (List.mem_finRange c))
  · exact hfirst (c, distance c) (List.mem_map_of_mem hc)

/-- The distance between the reference vector at a position and a vector. -/
def distanceTo (n : Network) (sample : n.Sample) (p : Position) : Except Error Float :=
  (n.referenceAt p).map fun reference => weightedDistance (Number.floats n.weights) reference sample

lemma cellAt_position (n : Network) (c : n.Cell) : n.cellAt (n.grid.position c) = .ok c := by
  rw [cellAt, Grid.cell?_position]

lemma distanceTo_position (n : Network) (sample : n.Sample) (c : n.Cell) :
    n.distanceTo sample (n.grid.position c) =
      .ok (n.toShape.sampleDistance n.weights n.references sample c) := by
  rw [distanceTo, referenceAt, cellAt_position]
  rfl

lemma closestPosition_eq {n : Network} (hn : n.state = .trained) {t : Tensor} {sample : n.Sample}
    (ht : t.vector? n.dimensions = some sample) :
    n.closestPosition (.ok t) = .ok (n.grid.position (n.closestCell sample)) := by
  have hcheck : n.checkVector (.ok t) = .ok sample := by
    simp only [checkVector, requireArray, Except.mapError, bind, Except.bind, ht, pure, Except.pure]
  rw [closestPosition, hcheck, requireTrained, if_pos hn]
  rfl

/-- **A trained network finds the closest cell**, and of several the first one, row by row. If the
distance to some cell is no number, it is the first such cell. -/
theorem closestPosition_comes_first (n : Network) (hn : n.state = .trained) (t : Tensor)
    (ht : t.shape = [n.dimensions]) :
    ∃ (sample : n.Sample) (distance : Position → Float), sample.toList = t.entries ∧
      (∀ q ∈ n.grid.positions, n.distanceTo sample q = .ok (distance q)) ∧
      ∃ before p after, n.grid.positions = before ++ p :: after ∧ n.grid.Contains p ∧
        n.closestPosition (.ok t) = .ok p ∧
        ((∀ q ∈ n.grid.positions, (distance q).isNaN = false) →
          (∀ q ∈ n.grid.positions, distance p ≤ distance q) ∧
            ∀ q ∈ before, distance p < distance q) ∧
        ((∃ q ∈ n.grid.positions, (distance q).isNaN = true) →
          (distance p).isNaN = true ∧ ∀ q ∈ before, (distance q).isNaN = false) := by
  obtain ⟨sample, hsample, hentries⟩ :
      ∃ sample, t.vector? n.dimensions = some sample ∧ sample.toList = t.entries := by
    rw [Tensor.vector?, dif_pos ht]
    exact ⟨_, rfl, rfl⟩
  let distance (q : Position) : Float :=
    match n.distanceTo sample q with
    | .ok d => d
    | .error _ => 0.0
  have hdistance (c : n.Cell) : distance (n.grid.position c) =
      n.toShape.sampleDistance n.weights n.references sample c := by
    change (match n.distanceTo sample (n.grid.position c) with
      | .ok d => d
      | .error _ => 0.0) = _
    rw [distanceTo_position]
  obtain ⟨before, closest, after, hclosest, hcells, hleast, hfirst⟩ :=
    n.toShape.exists_closestCell n.weights n.references sample fun c => (hdistance c).symm
  have hat (q : Position) (hq : q ∈ n.grid.positions) : ∃ c, n.grid.position c = q :=
    Grid.exists_position (Grid.mem_positions.1 hq)
  have hmem (c : n.Cell) : n.grid.position c ∈ n.grid.positions :=
    Grid.mem_positions.2 (Grid.contains_position c)
  refine ⟨sample, distance, hentries, fun q hq => ?_, before.map n.grid.position,
    n.grid.position closest, after.map n.grid.position, ?_, Grid.contains_position closest,
      ?_, ?_, ?_⟩
  · obtain ⟨c, rfl⟩ := hat q hq
    rw [distanceTo_position, hdistance]
  · rw [Grid.positions_eq, hcells, List.map_append, List.map_cons]
  · rw [closestPosition_eq hn hsample]
    exact congrArg (fun c => Except.ok (n.grid.position c)) hclosest
  · intro hnumbers
    refine ⟨fun q hq => ?_, List.forall_mem_map.2 fun c hc => ?_⟩
    · obtain ⟨c, rfl⟩ := hat q hq
      exact (Number.le_iff_standing (hnumbers _ (hmem closest))).2 (hleast c)
    · exact (Number.lt_iff_standing (hnumbers _ (hmem closest))).2 (hfirst c hc)
  · rintro ⟨q, hq, hnan⟩
    obtain ⟨c, rfl⟩ := hat q hq
    have hbot : standing (distance (n.grid.position closest)) = ⊥ :=
      le_bot_iff.1 ((hleast c).trans_eq (Number.standing_eq_bot.2 hnan))
    refine ⟨Number.standing_eq_bot.1 hbot, List.forall_mem_map.2 fun c hc => ?_⟩
    rw [← Bool.not_eq_true, ← Number.standing_eq_bot]
    exact (hfirst c hc).ne_bot

/-- Two rows of three cells; four of them are equally close to one. -/
def board : Network where
  grid := ⟨3, 2⟩
  dimensions := 1
  width_pos := by decide
  height_pos := by decide
  dimensions_pos := Nat.one_pos
  references := #v[#v[14.0], #v[10.0], #v[12.0], #v[12.0], #v[10.0], #v[19.0]].map Number.bits
  weights := Number.bits (Vector.replicate 1 1.0)
  state := .trained
  initialRate := Network.defaultRate
  finalRadius := Network.defaultRadius

theorem closestPosition_comes_first_board :
    board.state = .trained ∧ (Tensor.ofList [11.0]).shape = [board.dimensions] ∧
      ∃ (sample : board.Sample) (distance : Position → Float), sample.toList = [11.0] ∧
        (∀ q ∈ board.grid.positions, board.distanceTo sample q = .ok (distance q)) ∧
        board.closestPosition (.ok (Tensor.ofList [11.0])) = .ok ⟨1, 0⟩ ∧
        (∀ q ∈ board.grid.positions, distance ⟨1, 0⟩ ≤ distance q) ∧
        distance ⟨1, 0⟩ < distance ⟨0, 0⟩ := by
  obtain ⟨sample, distance, hsample, hdistance, before, p, after, hsplit, -, hp, hnumbers, -⟩ :=
    closestPosition_comes_first board rfl (Tensor.ofList [11.0]) rfl
  have hclosest : board.closestPosition (.ok (Tensor.ofList [11.0])) = .ok ⟨1, 0⟩ := by
    decide +kernel
  obtain rfl : ⟨1, 0⟩ = p := Except.ok.inj (hclosest.symm.trans hp)
  obtain rfl : sample = #v[11.0] := Vector.toList_inj.1 hsample
  have hall : ∀ q ∈ board.grid.positions,
      (board.distanceTo #v[11.0] q).map Float.isNaN = .ok false := by
    decide +kernel
  obtain ⟨hleast, hfirst⟩ := hnumbers fun q hq => by
    have h := hall q hq
    rw [hdistance q hq] at h
    exact Except.ok.inj h
  refine ⟨rfl, rfl, _, distance, hsample, hdistance, hclosest, hleast, hfirst _ ?_⟩
  cases before with
  | nil => cases (List.cons.inj hsplit).1
  | cons q before => exact (List.cons.inj hsplit).1 ▸ List.mem_cons_self

/-! ### The median -/

lemma unsigned_weightedDistance {d : ℕ} (weights a b : Vector Float d) :
    Number.Unsigned (weightedDistance weights a b).toModel.unpack :=
  Number.unsigned_sqrt (Number.zero_add_ne _)

lemma distance_position {n : Network} (hn : n.state = .trained) (a b : n.Cell) :
    n.distance (n.grid.position a) (n.grid.position b) = .ok (n.cellDistance a b) := by
  rw [distance, requireTrained, if_pos hn, cellAt_position, cellAt_position]
  rfl

lemma length_neighborDistances (n : Network) : n.neighborDistances.length =
    n.grid.height * (n.grid.width - 1) + n.grid.width * (n.grid.height - 1) := by
  rw [neighborDistances, List.length_map, Grid.length_pairs]

/-- **The median is taken over all pairs of cells side by side**, each taken once. It is zero for a
single cell, and no number if one of the distances is none; otherwise it is in the middle of the
only order of the distances. -/
theorem median_takes_each_pair_once (n : Network) (hn : n.state = .trained) :
    (n.neighborDistances : Multiset Float).map Except.ok = n.grid.sideBySide.val.map (fun p =>
        n.distance (n.grid.position p.1) (n.grid.position p.2)) ∧
      (∀ a b : n.Cell, n.grid.position b ∈ n.grid.neighbors (n.grid.position a) ↔
        Xor ((b, a) ∈ n.grid.sideBySide) ((a, b) ∈ n.grid.sideBySide)) ∧
      n.neighborDistances.length =
        n.grid.height * (n.grid.width - 1) + n.grid.width * (n.grid.height - 1) ∧
      (n.grid.width = 1 ∧ n.grid.height = 1 → n.medianNeighborDistance = 0.0) ∧
      ((∃ d ∈ n.neighborDistances, d.isNaN = true) → n.medianNeighborDistance.isNaN = true) ∧
      (¬ (n.grid.width = 1 ∧ n.grid.height = 1) → (∀ d ∈ n.neighborDistances, d.isNaN = false) →
        ∃ sorted, (∀ l : List Float, l.Perm n.neighborDistances ∧ l.Pairwise (· ≤ ·) ↔ l = sorted) ∧
          Numeric.Middle sorted n.medianNeighborDistance) := by
  have hcount := length_neighborDistances n
  have hmedian (hne : n.neighborDistances ≠ []) :
      n.medianNeighborDistance = Numeric.median n.neighborDistances := by
    unfold medianNeighborDistance
    split
    · contradiction
    · rfl
  refine ⟨?_, fun a b => Grid.mem_neighbors_iff_xor, hcount, ?_, ?_, ?_⟩
  · rw [← Grid.coe_pairs, Multiset.map_coe, Multiset.map_coe, neighborDistances, List.map_map]
    simp only [distance_position hn]
    rfl
  · rintro ⟨hw, hh⟩
    have hnil : n.neighborDistances = [] := by
      rw [← List.length_eq_zero_iff, hcount, hw, hh]
    unfold medianNeighborDistance
    rw [hnil]
  · rintro ⟨d, hd, hnan⟩
    rw [hmedian (List.ne_nil_of_mem hd)]
    exact Numeric.isNaN_median ⟨d, hd, hnan⟩
  · intro hmore hnumbers
    have hne : n.neighborDistances ≠ [] := fun hnil => by
      have hw := n.width_pos
      have hh := n.height_pos
      rw [hnil, List.length_nil, eq_comm, Nat.add_eq_zero_iff, Nat.mul_eq_zero,
        Nat.mul_eq_zero] at hcount
      omega
    have hsign : ∀ d ∈ n.neighborDistances, Number.Unsigned d.toModel.unpack :=
      List.forall_mem_map.2 fun p _ => unsigned_weightedDistance _ _ _
    rw [hmedian hne]
    refine ⟨Numeric.ascending n.neighborDistances, fun l => ⟨?_, ?_⟩,
      Numeric.middle_median hne hnumbers⟩
    · rintro ⟨hl, hsorted⟩
      exact Numeric.eq_ascending hnumbers hsign hl hsorted
    · rintro rfl
      exact ⟨List.mergeSort_perm _ _, Numeric.pairwise_ascending hnumbers⟩

theorem median_takes_each_pair_once_board :
    board.state = .trained ∧ board.neighborDistances.length = 7 ∧
      ¬ (board.grid.width = 1 ∧ board.grid.height = 1) ∧
      (∀ d ∈ board.neighborDistances, d.isNaN = false) ∧
      Numeric.Middle [0.0, 2.0, 2.0, 2.0, 4.0, 7.0, 9.0] board.medianNeighborDistance := by
  obtain ⟨-, -, hcount, -, -, hmiddle⟩ := median_takes_each_pair_once board rfl
  have hnumbers : ∀ d ∈ board.neighborDistances, d.isNaN = false := by decide +kernel
  obtain ⟨sorted, honly, hmedian⟩ := hmiddle (by decide) hnumbers
  obtain rfl : [0.0, 2.0, 2.0, 2.0, 4.0, 7.0, 9.0] = sorted :=
    (honly _).1 ⟨by decide +kernel, by decide +kernel⟩
  exact ⟨rfl, hcount, by decide, hnumbers, hmedian⟩

end SoundAtlas.Network
