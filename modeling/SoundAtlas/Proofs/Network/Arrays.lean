import Mathlib
import SoundAtlas.Cache.Version
import SoundAtlas.Proofs.Chains

/-!
A network is restored from its arrays. Sizes, reference vectors and weights are those of the network
that they were taken from; what only matters to training is not kept.
-/

namespace SoundAtlas

namespace Network

lemma sizes_of_check {width height dimensions : ℤ} {s : Shape}
    (h : Shape.check width height dimensions = .ok s) :
    (s.grid.width : ℤ) = width ∧ (s.grid.height : ℤ) = height ∧ (s.dimensions : ℤ) =
      dimensions := by
  unfold Shape.check at h
  split at h
  · cases h
  · split at h
    · cases h
    · cases h
      refine ⟨?_, ?_, ?_⟩
      · change (width.toNat : ℤ) = width
        omega
      · change (height.toNat : ℤ) = height
        omega
      · change (dimensions.toNat : ℤ) = dimensions
        omega

lemma setWeights_eq_ok {n n' : Network} {weights : Except Tensor.Error (Tensor UInt64)} :
    n.setWeights weights = .ok n' ↔ ∃ t w, weights = .ok t ∧ t.vector? n.dimensions = some w ∧
      n' = { n with weights := w } := by
  rw [setWeights, bind_eq_ok]
  simp only [requireArray, mapError_eq_ok]
  constructor
  · rintro ⟨t, ht, h⟩
    split at h
    · rename_i w hw
      exact ⟨t, w, ht, hw, (Except.ok.inj h).symm⟩
    · cases h
  · rintro ⟨t, w, ht, hw, rfl⟩
    refine ⟨t, ht, ?_⟩
    rw [hw]
    rfl

/-- **A network that is restored from arrays** is trained, has the sizes that were asked for and
holds what is in the arrays. -/
lemma exists_of_ofArrays {width height : ℤ} {n : Network}
    {references weights : Except Tensor.Error (Tensor UInt64)}
    (h : ofArrays width height references weights = .ok n) :
    n.state = .trained ∧ (n.grid.width : ℤ) = width ∧ (n.grid.height : ℤ) = height ∧
      ∃ t u, references = .ok t ∧ t.shape = [n.grid.size, n.dimensions] ∧
        t.matrix? n.grid.size n.dimensions = some n.references ∧
        weights = .ok u ∧ u.vector? n.dimensions = some n.weights := by
  unfold ofArrays at h
  obtain ⟨t, ht, h⟩ := bind_eq_ok.1 h
  rw [requireArray, mapError_eq_ok] at ht
  split at h
  · rename_i count dimensions hshape
    by_cases hcount : (count : ℤ) ≠ width * height
    · rw [if_pos hcount] at h
      cases h
    · rw [if_neg hcount] at h
      obtain ⟨s, hs, hset⟩ := bind_eq_ok.1 h
      obtain ⟨hwidth, hheight, hdimensions⟩ := sizes_of_check hs
      have hsize : count = s.grid.size := by
        have hprod : (count : ℤ) = s.grid.width * s.grid.height := by
          rw [hwidth, hheight, not_not.1 hcount]
        exact_mod_cast hprod
      obtain rfl : dimensions = s.dimensions := by exact_mod_cast hdimensions.symm
      rw [hsize] at hshape
      split at hset
      · rename_i vectors hvectors
        obtain ⟨u, w, hu, hw, rfl⟩ := setWeights_eq_ok.1 hset
        exact ⟨rfl, hwidth, hheight, t, u, ht, hshape, hvectors, hu, hw⟩
      · cases hset
  · cases h

end Network

/-- The network as it comes back from its arrays: trained, with the standard rate and radius. -/
def Network.restored (n : Network) : Network :=
  { n with
    state := .trained
    initialRate := Network.defaultRate
    finalRadius := Network.defaultRadius }

namespace Cache

variable {α : Type}

lemma toList_flatten {n m : ℕ} (rows : Vector (Vector α m) n) :
    rows.flatten.toList = rows.toList.flatMap Vector.toList := by
  obtain ⟨⟨rows⟩, h⟩ := rows
  simp [Vector.flatten, List.flatMap_def]
  rfl

lemma entries_referenceTensor (n : Network)
    (h : (referenceTensor n).entries.toArray.size = n.grid.size * n.dimensions) :
    (⟨(referenceTensor n).entries.toArray, h⟩ : Vector UInt64 (n.grid.size * n.dimensions)) =
      n.references.flatten := by
  refine Vector.toArray_inj.1 ?_
  change (n.references.toList.flatMap Vector.toList).toArray = n.references.flatten.toArray
  rw [← toList_flatten, Vector.toArray_toList]

lemma matrix?_referenceTensor (n : Network) :
    (referenceTensor n).matrix? n.grid.size n.dimensions = some n.references := by
  have hshape : (referenceTensor n).shape = [n.grid.size, n.dimensions] := rfl
  unfold Tensor.matrix?
  rw [dif_pos hshape]
  dsimp only
  rw [entries_referenceTensor]
  refine congrArg some (Vector.ext fun i hi => Vector.ext fun j hj => ?_)
  have hdiv : (i * n.dimensions + j) / n.dimensions = i := by
    rw [Nat.add_comm, Nat.add_mul_div_right _ _ n.dimensions_pos, Nat.div_eq_of_lt hj, Nat.zero_add]
  have hmod : (i * n.dimensions + j) % n.dimensions = j := by
    rw [Nat.add_comm, Nat.add_mul_mod_self_right, Nat.mod_eq_of_lt hj]
  simp only [Vector.getElem_ofFn, Vector.get_eq_getElem, Vector.getElem_flatten, hdiv, hmod]

lemma vector?_ofList {d : ℕ} (v : Vector α d) :
    (Tensor.ofList v.toList).vector? d = some v := by
  have hshape : (Tensor.ofList v.toList).shape = [d] := congrArg (fun n => [n]) v.length_toList
  unfold Tensor.vector?
  rw [dif_pos hshape]
  exact congrArg some (Vector.toArray_inj.1 v.toArray_toList)

lemma check_sizes (s : Network.Shape) :
    Network.Shape.check s.grid.width s.grid.height s.dimensions = .ok s := by
  have hw := s.width_pos
  have hh := s.height_pos
  have hd := s.dimensions_pos
  unfold Network.Shape.check
  rw [dif_neg (by omega), dif_neg (by omega)]
  rfl

/-- **A network comes back from its arrays.** -/
lemma ofArrays_networkArchive (n : Network) :
    Network.ofArrays n.grid.width n.grid.height (.ok (referenceTensor n))
      (.ok (Tensor.ofList n.weights.toList)) = .ok n.restored := by
  have hcount : ((n.grid.size : ℕ) : ℤ) = (n.grid.width : ℤ) * (n.grid.height : ℤ) := by
    rw [Grid.size, Nat.cast_mul]
  have hshape : (referenceTensor n).shape = [n.grid.size, n.dimensions] := rfl
  have hcheck := check_sizes n.toShape
  have hrows := matrix?_referenceTensor n
  have hweights := vector?_ofList n.weights
  simp only [Network.ofArrays, Network.requireArray, Except.mapError, hshape, hcount, ne_eq,
    not_true_eq_false, if_false, hcheck, hrows, Network.setWeights, hweights, bind, Except.bind,
    pure, Except.pure]
  rfl

end Cache

end SoundAtlas
