import SoundAtlas.Proofs.Number.Rounding

/-!
The signs of floats: a quotient of numbers that are not negative is not negative, and so its roots
are real.
-/

namespace SoundAtlas.Number

open Float.Model
open Float.Model.UnpackedFloat (Accuracy)

variable {x y : Float}

/-- Whether a float taken apart has no minus sign. -/
def Unsigned : UnpackedFloat → Prop
  | .infinity .negative | .zero .negative | .finite .negative .. => False
  | _ => True

lemma unpackSign_pack {u : UnpackedFloat} (h : Unsigned u) :
    UnpackedFloat.unpackSign (UnpackedFloat.pack .binary64 u) = 0#1 := by
  rcases u with (_ | _) | _ | (_ | _) | ⟨_ | _, m, e, _⟩ <;> try exact h.elim
  · exact unpackSign_packComponents ..
  · exact unpackSign_packComponents ..
  · exact unpackSign_packComponents ..
  · unfold UnpackedFloat.pack
    dsimp only
    split
    · exact unpackSign_packComponents ..
    · split <;> exact unpackSign_packComponents ..

lemma unsigned_unpack {bits : BitVec 64}
    (h : @UnpackedFloat.unpackSign .binary64 bits = 0#1) :
    Unsigned (UnpackedFloat.unpack .binary64 bits) := by
  unfold UnpackedFloat.unpack
  dsimp only
  rw [h]
  split
  · split <;> trivial
  · split
    · split <;> trivial
    · trivial

lemma Unsigned.pack {u : UnpackedFloat} (h : Unsigned u) :
    Unsigned (Float.Model.pack u).unpack :=
  unsigned_unpack (unpackSign_pack h)

lemma unsigned_round (m : ℕ) (e : ℤ) (rest : Accuracy) :
    Unsigned (.roundWithAccuracy .binary64 .positive m e rest) := by
  unfold UnpackedFloat.roundWithAccuracy
  dsimp only
  split <;> trivial

lemma Unsigned.mul {u v : UnpackedFloat} (hu : Unsigned u) (hv : Unsigned v) :
    Unsigned (u.mul .binary64 v) := by
  rcases u with (_ | _) | _ | (_ | _) | ⟨_ | _, m, e, _⟩ <;> try exact hu.elim
  all_goals
    rcases v with (_ | _) | _ | (_ | _) | ⟨_ | _, m', e', _⟩ <;> try exact hv.elim
    all_goals first | exact trivial | exact unsigned_round ..

lemma Unsigned.div {u v : UnpackedFloat} (hu : Unsigned u) (hv : Unsigned v) :
    Unsigned (u.div .binary64 v) := by
  rcases u with (_ | _) | _ | (_ | _) | ⟨_ | _, m, e, _⟩ <;> try exact hu.elim
  all_goals
    rcases v with (_ | _) | _ | (_ | _) | ⟨_ | _, m', e', _⟩ <;> try exact hv.elim
    all_goals first | exact trivial | exact unsigned_round ..

lemma not_neg_iff : ¬ x < 0.0 ↔ Unsigned x.toModel.unpack ∨ x.toModel.unpack = .zero .negative := by
  have hzero : rank 0.0 = some (.mk 0 0 0) := rfl
  rw [lt_iff, hzero, rank]
  generalize x.toModel.unpack = u
  rcases u with (_ | _) | _ | (_ | _) | ⟨_ | _, m, e, _⟩ <;>
    simp [unpackedRank, Unsigned, Rank.mk_lt]

lemma Unsigned.of_lt (hx : Unsigned x.toModel.unpack) (h : x < y) :
    Unsigned y.toModel.unpack := by
  obtain ⟨r, s, hr, hs, hlt⟩ := lt_iff.1 h
  unfold rank at hr hs
  generalize x.toModel.unpack = u at hx hr
  generalize y.toModel.unpack = v at hs ⊢
  rcases u with (_ | _) | _ | (_ | _) | ⟨_ | _, m, e, _⟩ <;> try exact hx.elim
  all_goals cases hr
  all_goals
    rcases v with (_ | _) | _ | (_ | _) | ⟨_ | _, m', e', _⟩ <;> try exact trivial
    all_goals
      cases hs
      simp [Rank.mk_lt] at hlt

/-- **A quotient is not negative** if the dividend is not and the divisor has no minus sign. -/
lemma not_neg_div (hx : ¬ x < 0.0) (hy : Unsigned y.toModel.unpack) :
    ¬ x / y < 0.0 := by
  rw [not_neg_iff] at hx ⊢
  change Unsigned (Float.Model.pack (x.toModel.unpack.div .binary64 y.toModel.unpack)).unpack ∨
    (Float.Model.pack (x.toModel.unpack.div .binary64 y.toModel.unpack)).unpack = _
  obtain hx | hx := hx
  · exact .inl (hx.div hy).pack
  · rw [hx]
    generalize y.toModel.unpack = v at hy
    rcases v with (_ | _) | _ | (_ | _) | ⟨_ | _, m, e, _⟩ <;> try exact hy.elim
    · exact .inr (unpack_pack_zero .negative)
    · exact .inl trivial
    · exact .inl trivial
    · exact .inr (unpack_pack_zero .negative)

lemma unsigned_ofInt {n : ℤ} (h : 0 ≤ n) : Unsigned (.ofInt .binary64 n) := by
  unfold UnpackedFloat.ofInt UnpackedFloat.normalize
  split
  · rename_i hlt
    exact absurd (Int.compare_eq_lt.1 hlt) h.not_gt
  · trivial
  · exact unsigned_round ..

lemma unsigned_ofScientific (m : ℕ) (e : ℤ) : Unsigned (.ofScientific .binary64 m e) := by
  unfold UnpackedFloat.ofScientific
  split
  · trivial
  · split
    · trivial
    · split
      · trivial
      · split
        · exact Unsigned.mul trivial trivial
        · exact Unsigned.div trivial trivial

lemma unsigned_ofNat (n : ℕ) : Unsigned (Float.ofNat n).toModel.unpack := by
  by_cases h : n < 2 ^ 53
  · have hn : Unsigned n.toUInt64.toFloat.toModel.unpack :=
      (unsigned_ofInt (Int.natCast_nonneg n.toUInt64.toNat)).pack
    have hone : Unsigned (1.0 : Float).toModel.unpack := trivial
    rw [toFloat_eq n h]
    exact (hn.mul hone).pack
  · change Unsigned (Float.ofScientific n false 0).toModel.unpack
    rw [Float.ofScientific, dif_neg fun hfast => h hfast.1]
    exact (unsigned_ofScientific n _).pack

/-! ### Powers -/

/-- **A power with an exponent from zero to one** is a float, unless the base is negative and the
exponent is not whole. -/
lemma exists_power {base exponent : Float} (hzero : 0.0 ≤ exponent) (hone : exponent ≤ 1.0)
    (hreal : base < 0.0 → base.isFinite = true → isWhole exponent = true) :
    ∃ x, power base exponent = .ok x := by
  have hneg : ¬ exponent < 0.0 := fun h =>
    float_lt_irrefl _ (float_lt_of_le_of_lt hzero h)
  have hdivides : ¬ (base == 0.0 && decide (exponent < 0.0)) = true := by simp [hneg]
  have hcomplex : ¬ (decide (base < 0.0) && base.isFinite && exponent.isFinite &&
      !isWhole exponent) = true := by
    simp only [Bool.and_eq_true, decide_eq_true_eq, Bool.not_eq_true']
    rintro ⟨⟨⟨hbase, hfinite⟩, -⟩, hpart⟩
    rw [hreal hbase hfinite] at hpart
    cases hpart
  unfold power
  rw [if_neg hdivides, if_neg hcomplex]
  simp [hzero, hone]

end SoundAtlas.Number
