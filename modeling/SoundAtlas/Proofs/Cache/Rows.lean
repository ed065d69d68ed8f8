import SoundAtlas.Cache.Loading
import SoundAtlas.Proofs.Index.Faithful
import SoundAtlas.Proofs.Json.RoundTrip

/-!
Tracks and their positions as rows. The rows say all there is to say: they can be read back, and are
the same in whatever order the tracks and the positions of each are given.
-/

namespace SoundAtlas.Cache

/-! ### What can be written -/

lemma isWritable_arr {vs : List Json} :
    (Json.arr vs).isWritable = true ↔ ∀ v ∈ vs, v.isWritable = true := by
  rw [Json.isWritable]
  induction vs with
  | nil => simp [Json.areWritable]
  | cons v vs ih => rw [Json.areWritable, Bool.and_eq_true, List.forall_mem_cons, ih]

lemma isWritable_object {ms : List (String × Json)} :
    (Json.object ms).isWritable = true ↔ ∀ e ∈ ms, e.2.isWritable = true := by
  rw [Json.object, Json.isWritable]
  induction ms with
  | nil => simp [Json.membersWritable]
  | cons e ms ih =>
    rw [List.map_cons, Json.membersWritable, Bool.and_eq_true, List.forall_mem_cons, ih]

lemma isWritable_int {n : ℤ} : (Json.int n).isWritable = true ↔ Number.withinLimit n = true := by
  rw [Json.isWritable]

lemma forall_mem_pair {α : Type} {P : α → Prop} {a b : α} :
    (∀ x ∈ [a, b], P x) ↔ P a ∧ P b := by
  simp

/-! ### Rows of positions -/

lemma legible_positionJson {p : Position} {depth : ℕ} (h : (positionJson p).isWritable = true) :
    Json.Legible (depth + 1) (positionJson p) := by
  obtain ⟨hx, hy⟩ := forall_mem_pair.1 (isWritable_arr.1 h)
  exact .arr (forall_mem_pair.2 ⟨.int (isWritable_int.1 hx), .int (isWritable_int.1 hy)⟩)

lemma legible_positionsRow {e : ℤ × PositionSet} {depth : ℕ}
    (h : (positionsRow e).isWritable = true) : Json.Legible (depth + 3) (positionsRow e) := by
  obtain ⟨htrack, hpositions⟩ := forall_mem_pair.1 (isWritable_object.1 h)
  refine .object (by simp) (forall_mem_pair.2 ⟨.int (isWritable_int.1 htrack), .arr fun v hv => ?_⟩)
  have hposition := isWritable_arr.1 hpositions v hv
  obtain ⟨p, -, rfl⟩ := List.mem_map.1 hv
  exact legible_positionJson hposition

lemma legible_positionsRows {ps : TrackPositions} {depth : ℕ}
    (h : (Json.arr (positionsRows ps)).isWritable = true) :
    Json.Legible (depth + 4) (.arr (positionsRows ps)) := by
  refine .arr fun v hv => ?_
  have hrow := isWritable_arr.1 h v hv
  obtain ⟨e, -, rfl⟩ := List.mem_map.1 hv
  exact legible_positionsRow hrow

/-- Reading each of some written things gives these things. -/
lemma mapM_map_eq_ok {α β ε : Type} {read : β → Except ε α} {write : α → β}
    (h : ∀ a, read (write a) = .ok a) (xs : List α) : (xs.map write).mapM read = .ok xs := by
  induction xs with
  | nil => rfl
  | cons x xs ih =>
    rw [List.map_cons, List.mapM_cons, h, ih]
    rfl

lemma readPositions_map (ps : List Position) :
    Model.readPositions (.arr (ps.map positionJson)) = .ok (Std.ExtTreeSet.ofList ps) := by
  have hread : ∀ p, Model.readPosition (positionJson p) = .ok p := fun _ => rfl
  rw [Model.readPositions, Json.elements]
  change (ps.map positionJson).mapM Model.readPosition >>= _ = _
  rw [mapM_map_eq_ok hread]
  rfl

lemma ofList_toList_set (ps : PositionSet) : Std.ExtTreeSet.ofList ps.toList = ps :=
  PositionSet.ext fun p => by
    rw [Std.ExtTreeSet.mem_ofList, List.contains_iff_mem, Std.ExtTreeSet.mem_toList]

lemma ofList_toList_map (ps : TrackPositions) : Std.ExtTreeMap.ofList ps.toList = ps := by
  refine Std.ExtTreeMap.ext_getElem? fun track => ?_
  cases hps : ps[track]? with
  | some set =>
    exact Std.ExtTreeMap.getElem?_ofList_of_mem Std.ReflCmp.compare_self
      Std.ExtTreeMap.distinct_keys_toList
      (Std.ExtTreeMap.mem_toList_iff_getElem?_eq_some.2 hps)
  | none =>
    refine Std.ExtTreeMap.getElem?_ofList_of_contains_eq_false ?_
    rw [Std.ExtTreeMap.map_fst_toList_eq_keys, ← Bool.not_eq_true, List.contains_iff_mem,
      Std.ExtTreeMap.mem_keys]
    exact fun hmem => by simp [← Std.ExtTreeMap.isSome_getElem?_iff_mem, hps] at hmem

lemma readTrackRow_positionsRow (e : ℤ × PositionSet) : readTrackRow (positionsRow e) = .ok e := by
  obtain ⟨track, ps⟩ := e
  have hpositions : (positionsRow (track, ps)).member "positions" =
      .ok (.arr (ps.toList.map positionJson)) := rfl
  have htrack : (positionsRow (track, ps)).member "track_id" = .ok (.int track) := rfl
  rw [readTrackRow, hpositions]
  change Model.readPositions (.arr (ps.toList.map positionJson)) >>= _ = _
  rw [readPositions_map, ofList_toList_set, htrack]
  rfl

lemma readTrackRows_positionsRows (ps : TrackPositions) :
    readTrackRows (.arr (positionsRows ps)) = .ok ps.toList :=
  mapM_map_eq_ok readTrackRow_positionsRow ps.toList

/-! ### The order of rows -/

/-- Whether a position comes before another or is the same: by column, then by row. -/
def isSorted (p q : Position) : Bool :=
  decide (p.x < q.x ∨ (p.x = q.x ∧ p.y ≤ q.y))

/-- The rows of tracks that are given in any order, with the positions of each in any order: both
are sorted. -/
def rowsInOrder (tracks : List ℤ) (order : ℤ → List Position) : List Json :=
  (tracks.mergeSort fun a b => decide (a ≤ b)).map fun track =>
    Json.object
      [("track_id", .int track),
        ("positions", .arr (((order track).mergeSort isSorted).map positionJson))]

lemma mergeSort_tracks {ps : TrackPositions} {tracks : List ℤ} (h : tracks.Perm ps.keys) :
    tracks.mergeSort (fun a b => decide (a ≤ b)) = ps.keys := by
  have hsorted : (tracks.mergeSort fun a b => decide (a ≤ b)).Pairwise fun a b => decide (a ≤ b) :=
    List.pairwise_mergeSort (fun a b c => by simpa using le_trans)
      (fun a b => by simpa using le_total a b) tracks
  have hkeys : ps.keys.Pairwise fun a b => decide (a ≤ b) :=
    Std.ExtTreeMap.ordered_keys.imp fun hab => by
      simpa using (Int.compare_eq_lt.1 hab).le
  exact ((List.mergeSort_perm _ _).trans h).eq_of_pairwise
    (fun a b _ _ hab hba => le_antisymm (of_decide_eq_true hab) (of_decide_eq_true hba))
      hsorted hkeys

lemma isSorted_of_compare {p q : Position} (h : compare p q = .lt) : isSorted p q = true := by
  have hlex : (compare p.x q.x).then (compare p.y q.y) = .lt := h
  rw [Ordering.then_eq_lt] at hlex
  refine decide_eq_true (hlex.imp Int.compare_eq_lt.1 fun ⟨hx, hy⟩ => ?_)
  exact ⟨Int.compare_eq_eq.1 hx, (Int.compare_eq_lt.1 hy).le⟩

lemma isSorted_antisymm {p q : Position} (hpq : isSorted p q = true) (hqp : isSorted q p = true) :
    p = q := by
  rw [isSorted, decide_eq_true_eq] at hpq hqp
  obtain ⟨px, py⟩ := p
  obtain ⟨qx, qy⟩ := q
  dsimp only at hpq hqp
  rw [Position.mk.injEq]
  omega

lemma mergeSort_positions {ps : PositionSet} {order : List Position} (h : order.Perm ps.toList) :
    order.mergeSort isSorted = ps.toList := by
  have hsorted : (order.mergeSort isSorted).Pairwise fun p q => isSorted p q = true :=
    List.pairwise_mergeSort (fun p q r => by simp only [isSorted, decide_eq_true_eq]; omega)
      (fun p q => by simp only [isSorted, Bool.or_eq_true, decide_eq_true_eq]; omega) order
  have hset : ps.toList.Pairwise fun p q => isSorted p q = true :=
    Std.ExtTreeSet.ordered_toList.imp isSorted_of_compare
  exact ((List.mergeSort_perm _ _).trans h).eq_of_pairwise
    (fun p q _ _ hpq hqp => isSorted_antisymm hpq hqp) hsorted hset

/-- **Rows do not depend on the order** in which tracks and their positions are given. -/
lemma rowsInOrder_eq {ps : TrackPositions} {tracks : List ℤ} {order : ℤ → List Position}
    (ht : tracks.Perm ps.keys) (ho : ∀ track ∈ ps, (order track).Perm (ps.getD track ∅).toList) :
    rowsInOrder tracks order = positionsRows ps := by
  rw [rowsInOrder, mergeSort_tracks ht, positionsRows, ← Std.ExtTreeMap.map_fst_toList_eq_keys,
    List.map_map]
  refine List.map_congr_left fun e he => ?_
  have hperm := ho e.1 (PositionSet.mem_of_mem_toList he)
  rw [PositionSet.getD_of_mem_toList he] at hperm
  rw [Function.comp_apply, mergeSort_positions hperm]
  rfl

end SoundAtlas.Cache
