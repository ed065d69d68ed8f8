import Mathlib
import SoundAtlas.Proofs.Index.Derived

/-!
Indices of positions that need not lie on the grid. What a track brings is recorded at all its
positions, be there cells or not, if only the numbers that are made of them are those of cells.
-/

namespace SoundAtlas.ModelIndex

variable {m m' index : ModelIndex} {p : Position} {catalog : Catalog}

lemma has_record {entry : Part × Int} (h : record p m entry = some m') (f : Fact) :
    m'.Has f ↔ m.Has f ∨ ((f.part, f.entity) = entry ∧ f.position = p) := by
  obtain ⟨k, entity⟩ := entry
  obtain ⟨ix, hix, rfl⟩ := Option.map_eq_some_iff.1 h
  unfold EntityIndex.insert? at hix
  dsimp only at hix
  split at hix
  · obtain rfl := Option.some.inj hix
    rw [Has, part_setPart, Prod.mk.injEq]
    split
    · rename_i hk
      obtain rfl : k = f.part := hk
      rw [EntityIndex.mem_positionsOf_add, Has]
      simp
    · rename_i hk
      simp [Has, Ne.symm hk]
  · cases hix

/-- **What is recorded one after the other** is there in the end, and nothing else comes to it. -/
lemma has_foldlM {α : Type} {add : ModelIndex → α → Option ModelIndex} {new : α → Fact → Prop}
    (hadd : ∀ m m' x, add m x = some m' → ∀ f, m'.Has f ↔ m.Has f ∨ new x f) {xs : List α}
    (h : xs.foldlM add m = some m') (f : Fact) : m'.Has f ↔ m.Has f ∨ ∃ x ∈ xs, new x f := by
  induction xs generalizing m with
  | nil =>
    obtain rfl : m = m' := Option.some.inj h
    simp
  | cons x xs ih =>
    obtain ⟨m₁, h₁, hrest⟩ := Option.bind_eq_some_iff.1 h
    rw [ih hrest, hadd m m₁ x h₁, or_assoc]
    simp only [List.mem_cons, exists_eq_or_imp]

lemma has_addTrackAt {track : Int} {t : Track} (h : m.addTrackAt track t p = some m') (f : Fact) :
    m'.Has f ↔ m.Has f ∨ ((f.part, f.entity) ∈ entries track t ∧ f.position = p) := by
  rw [addTrackAt_eq] at h
  have hfold : m'.Has f ↔ m.Has f ∨ ∃ entry ∈ entries track t,
      (f.part, f.entity) = entry ∧ f.position = p :=
    has_foldlM (fun _ _ _ h => has_record h) h f
  rw [hfold]
  simp

lemma has_withTrack {row : Int × PositionSet} (h : withTrack catalog m row = .ok m') :
    (∃ t, catalog.track row.1 = .ok t) ∧
      ∀ f, m'.Has f ↔ m.Has f ∨ (Brings catalog row.1 f.part f.entity ∧ f.position ∈ row.2) := by
  rw [withTrack_eq] at h
  unfold withTrackInOrder at h
  split at h
  · cases h
  · rename_i t ht
    split at h
    · cases h
    · rename_i m₁ hfold
      obtain rfl : m₁ = m' := Except.ok.inj h
      refine ⟨⟨t, ht⟩, fun f => ?_⟩
      have hmem : m₁.Has f ↔ m.Has f ∨ ∃ p ∈ row.2.toList,
          (f.part, f.entity) ∈ entries row.1 t ∧ f.position = p :=
        has_foldlM (fun _ _ _ h => has_addTrackAt h) hfold f
      rw [hmem]
      simp [Brings, ht, Std.ExtTreeSet.mem_toList, and_comm]

/-- **What indices say of tracks at any positions**: all that the tracks bring, at
their positions. -/
lemma has_addTracks {rows : List (Int × PositionSet)}
    (h : addTracks catalog quiet rows m () = (.ok (some index), ())) :
    (∀ row ∈ rows, ∃ t, catalog.track row.1 = .ok t) ∧
      ∀ f, index.Has f ↔ m.Has f ∨ ∃ row ∈ rows, Brings catalog row.1 f.part f.entity ∧
        f.position ∈ row.2 := by
  induction rows generalizing m with
  | nil =>
    obtain rfl : m = index := by simpa [addTracks] using h
    simp
  | cons row rest ih =>
    rw [addTracks_cons, if_neg (by simp [quiet])] at h
    split at h
    · cases h
    · rename_i m₁ hrow
      obtain ⟨ht, hhas⟩ := has_withTrack hrow
      obtain ⟨hts, hrest⟩ := ih h
      refine ⟨List.forall_mem_cons.2 ⟨ht, hts⟩, fun f => ?_⟩
      rw [hrest, hhas, or_assoc]
      simp only [List.mem_cons, exists_eq_or_imp]

lemma mem_tracks_of_build {width height : Int} {ps : TrackPositions}
    (h : build width height ps catalog quiet () = (.ok (some index), ())) {track : Int}
    (hp : p ∈ ps.getD track ∅) : p ∈ index.tracks.positionsOf track := by
  obtain ⟨hall, hhas⟩ := has_addTracks h
  obtain ⟨row, hrow, rfl, hp'⟩ := mem_getD_iff.1 hp
  obtain ⟨t, ht⟩ := hall row hrow
  exact (hhas ⟨.tracks, row.1, p⟩).2 (Or.inr ⟨row, hrow, ⟨t, ht, by simp [entries]⟩, hp'⟩)

end SoundAtlas.ModelIndex
