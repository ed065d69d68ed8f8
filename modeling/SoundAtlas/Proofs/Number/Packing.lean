import SoundAtlas.Proofs.Number.Sign

/-!
Floats and their parts. A float that is taken apart and packed again is the same float, so two
floats with the same parts are one; and without minus signs the rank is enough to tell them. Sums
that begin at zero and the roots of such sums have no minus sign but that of a number.
-/

namespace SoundAtlas.Number

open Float.Model
open Float.Model.UnpackedFloat (Sign)

variable {x y : Float}

/-! ### Fields -/

lemma toBitVec_ofBitVec (s : BitVec 1) : (Sign.ofBitVec s).toBitVec = s := by
  decide +revert

lemma packComponents_fields (bits : BitVec 64) :
    UnpackedFloat.packComponents .binary64
      (Sign.ofBitVec (@UnpackedFloat.unpackSign .binary64 bits))
      (@UnpackedFloat.unpackExponent .binary64 bits)
      (@UnpackedFloat.unpackMantissa .binary64 bits) = bits := by
  unfold UnpackedFloat.packComponents
  rw [toBitVec_ofBitVec]
  change (bits.extractLsb' 63 1 ++ bits.extractLsb' 52 11 ++ bits.extractLsb' 0 52 :
    BitVec 64) = bits
  ext i hi
  simp only [BitVec.getElem_append, BitVec.getElem_extractLsb']
  grind

lemma ofNat_leadingOne (m : BitVec 52) : BitVec.ofNat 52 (2 ^ 52 + m.toNat) = m :=
  BitVec.eq_of_toNat_eq (by rw [BitVec.toNat_ofNat, Nat.add_mod_left, Nat.mod_eq_of_lt m.isLt])

/-- **A float is what it is packed from** once it has been taken apart. -/
lemma pack_unpack (x : Float.Model) : Float.Model.pack x.unpack = x := by
  obtain ⟨⟨bits⟩, hvalid⟩ := x
  suffices h : UnpackedFloat.pack .binary64 (UnpackedFloat.unpack .binary64 bits) = bits by
    unfold Float.Model.pack Float.Model.unpack
    simp only [h]
  have hfields := packComponents_fields bits
  unfold UnpackedFloat.unpack
  dsimp only
  split
  · -- an infinity, or no number
    rename_i he
    split
    · rename_i hm
      rw [he, hm] at hfields
      exact hfields
    · rename_i hm
      exact (hvalid.eq_packedNaN he hm).symm
  · rename_i hones
    split
    · -- zero, or a number with the least exponent
      rename_i he
      split
      · rename_i hm
        rw [he, hm] at hfields
        exact hfields
      · rw [pack_least _ (BitVec.isLt _) _ (by rw [he]; rfl)]
        rw [he] at hfields
        simpa using hfields
    · have hroom : (@UnpackedFloat.unpackExponent .binary64 bits).toNat < 2047 := by
        have hlt : (@UnpackedFloat.unpackExponent .binary64 bits).toNat < 2 ^ 11 := BitVec.isLt _
        have hne : (@UnpackedFloat.unpackExponent .binary64 bits).toNat ≠ 2047 := fun heq =>
          hones (BitVec.eq_of_toNat_eq heq)
        omega
      have hone := toNat_leadingOne (@UnpackedFloat.unpackMantissa .binary64 bits)
      have hlow : (@UnpackedFloat.unpackMantissa .binary64 bits).toNat < 2 ^ 52 := BitVec.isLt _
      refine (pack_full _ (by omega) (by omega) _ hroom rfl).trans ?_
      rw [hone, ofNat_leadingOne]
      simpa using hfields

lemma unpack_injective : Function.Injective Float.Model.unpack := fun x y h => by
  rw [← pack_unpack x, h, pack_unpack]

/-! ### Minus signs -/

lemma Unsigned.eq_of_unpackedRank {u v : UnpackedFloat} {r : Rank} (hu : Unsigned u)
    (hv : Unsigned v) (hru : unpackedRank u = some r) (hrv : unpackedRank v = some r) : u = v := by
  have h := hru.trans hrv.symm
  rcases u with (_ | _) | _ | (_ | _) | ⟨_ | _, m, e, _⟩ <;> try exact hu.elim
  all_goals
    rcases v with (_ | _) | _ | (_ | _) | ⟨_ | _, m', e', _⟩ <;> try exact hv.elim
    all_goals
      simp only [unpackedRank, Option.some.injEq, Rank.mk_inj] at h
      simp_all

/-- **Numbers without a minus sign are settled by their ranks.** -/
lemma Unsigned.eq_of_rank {r : Rank} (hx : Unsigned x.toModel.unpack)
    (hy : Unsigned y.toModel.unpack) (hrx : rank x = some r) (hry : rank y = some r) : x = y := by
  have hsame := unpack_injective (hx.eq_of_unpackedRank hy hrx hry)
  cases x
  cases y
  exact congrArg Float.ofModel hsame

lemma zero_add_unpacked {u : UnpackedFloat} (h : u ≠ .zero .negative) :
    UnpackedFloat.add .binary64 (.zero .positive) u = u := by
  rcases u with (_ | _) | _ | (_ | _) | ⟨_ | _, m, e, _⟩
  case zero.negative => exact absurd rfl h
  all_goals rfl

lemma zero_add_ne (x : Float) : (0.0 + x).toModel.unpack ≠ .zero .negative := by
  change (Float.Model.pack
    (UnpackedFloat.add .binary64 (.zero .positive) x.toModel.unpack)).unpack ≠ _
  by_cases hx : x.toModel.unpack = .zero .negative
  · rw [hx]
    exact nofun
  · rwa [zero_add_unpacked hx, pack_unpack]

/-- The only root with a minus sign is that of a negative zero. -/
lemma unsigned_sqrt (hx : x.toModel.unpack ≠ .zero .negative) : Unsigned x.sqrt.toModel.unpack := by
  suffices h : Unsigned (UnpackedFloat.sqrt .binary64 x.toModel.unpack) from h.pack
  revert hx
  rcases x.toModel.unpack with (_ | _) | _ | (_ | _) | ⟨_ | _, m, e, _⟩ <;> intro hx
  case zero.negative => exact absurd rfl hx
  case finite.positive => exact unsigned_round ..
  all_goals trivial

end SoundAtlas.Number
