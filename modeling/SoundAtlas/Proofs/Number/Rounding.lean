import SoundAtlas.Number.Quotient
import SoundAtlas.Proofs.Number.Order

/-!
Rounding. What a number is rounded to is zero or a float of the form that the format asks for, and
it is not beyond a power of two that the number has not reached. So the quotient of two whole
numbers is from zero to one if the divisor is not the smaller one. What has this form already is not
changed, and so a whole number of at most fifty-three bits is a float.
-/

namespace SoundAtlas.Number

open Float.Model
open Float.Model.UnpackedFloat (Accuracy ExtendedMantissa Sign)

/-! ### Shifting -/

lemma targetExponent_eq (total : ℤ) :
    Format.binary64.targetExponent total = max (total - 53) (-1074) := rfl

/-- The least whole number that is not less than what a mantissa with residual bits stands for. -/
def ceiling (m : ExtendedMantissa) : ℕ :=
  m.mantissa + (m.roundBit || m.stickyBit).toNat

lemma ceiling_shiftRightOne (m : ExtendedMantissa) :
    ceiling m.shiftRightOne = (ceiling m + 1) / 2 := by
  obtain ⟨m, round, sticky⟩ := m
  rcases Nat.mod_two_eq_zero_or_one m with h | h <;> cases round <;> cases sticky <;>
    simp [ceiling, ExtendedMantissa.shiftRightOne, h] <;> omega

lemma shiftRight_succ (m : ExtendedMantissa) (n : ℕ) :
    m >>> (n + 1) = (m >>> n).shiftRightOne := rfl

lemma mantissa_shiftRight (m : ExtendedMantissa) (n : ℕ) :
    (m >>> n).mantissa = m.mantissa / 2 ^ n := by
  induction n with
  | zero => simp [HShiftRight.hShiftRight, Nat.repeat]
  | succ n ih => rw [shiftRight_succ, pow_succ, ← Nat.div_div_eq_div_mul, ← ih]; rfl

lemma ceiling_shiftRight {m : ExtendedMantissa} {n t : ℕ} (h : ceiling m ≤ 2 ^ (t + n)) :
    ceiling (m >>> n) ≤ 2 ^ t := by
  induction n generalizing t with
  | zero => exact h
  | succ n ih =>
    have := ih (t := t + 1) (by rwa [Nat.add_right_comm])
    rw [shiftRight_succ, ceiling_shiftRightOne]
    rw [pow_succ] at this
    omega

lemma roundedMantissa_bounds (m : ExtendedMantissa) :
    m.mantissa ≤ m.roundedMantissa ∧ m.roundedMantissa ≤ ceiling m ∧
      ceiling m ≤ m.mantissa + 1 := by
  obtain ⟨m, round, sticky⟩ := m
  cases round <;> cases sticky <;>
    simp [ceiling, ExtendedMantissa.roundedMantissa, ExtendedMantissa.accuracy,
      Accuracy.roundToNearestEven]
  omega

section Rounded

variable {x : ExtendedMantissa} {n t : ℕ}

lemma roundedMantissa_mul_le (h : ceiling x ≤ 2 ^ t) (hn : n ≤ t) :
    (x >>> n).roundedMantissa * 2 ^ n ≤ 2 ^ t := by
  have hceil : ceiling (x >>> n) ≤ 2 ^ (t - n) :=
    ceiling_shiftRight (by rwa [Nat.sub_add_cancel hn])
  calc (x >>> n).roundedMantissa * 2 ^ n ≤ 2 ^ (t - n) * 2 ^ n :=
        Nat.mul_le_mul_right _ ((roundedMantissa_bounds _).2.1.trans hceil)
    _ = 2 ^ t := by rw [← pow_add, Nat.sub_add_cancel hn]

lemma roundedMantissa_le (h : x.mantissa.log2 < 53 + n) : (x >>> n).roundedMantissa ≤ 2 ^ 53 := by
  obtain ⟨-, hround, hnext⟩ := roundedMantissa_bounds (x >>> n)
  have hlt : (x >>> n).mantissa < 2 ^ 53 := by
    rw [mantissa_shiftRight, Nat.div_lt_iff_lt_mul (by positivity), ← pow_add]
    exact Nat.lt_log2_self.trans_le (Nat.pow_le_pow_right two_pos h)
  omega

lemma le_roundedMantissa (hne : x.mantissa ≠ 0) (h : 52 + n ≤ x.mantissa.log2) :
    2 ^ 52 ≤ (x >>> n).roundedMantissa := by
  refine le_trans ?_ (roundedMantissa_bounds _).1
  rw [mantissa_shiftRight, Nat.le_div_iff_mul_le (by positivity), ← pow_add]
  exact (Nat.pow_le_pow_right two_pos h).trans (Nat.log2_self_le hne)

end Rounded

/-! ### Rounding -/

/-- A mantissa and an exponent as a float has them: of fifty-three bits, or of fewer with the least
exponent. -/
structure Canonical (m : ℕ) (e : ℤ) : Prop where
  lt : m < 2 ^ 53
  least_le : -1074 ≤ e
  full : 2 ^ 52 ≤ m ∨ e = -1074

lemma shiftToTargetExponent_of_lt {m : ℕ} {e : ℤ} (hm : m < 2 ^ 53) (he : -1074 ≤ e) :
    UnpackedFloat.shiftToTargetExponent .binary64 m e .exact = (⟨m, false, false⟩, e) := by
  have hlog : m.log2 < 53 := by
    rcases eq_or_ne m 0 with rfl | hne
    · simp
    · exact (Nat.log2_lt hne).2 hm
  have hshift : (Format.binary64.targetExponent (totalExponent m e) - e).toNat = 0 := by
    rw [targetExponent_eq, totalExponent]
    omega
  simp only [UnpackedFloat.shiftToTargetExponent, UnpackedFloat.shiftToExponent, hshift]
  simp [ExtendedMantissa.ofMantissaAndAccuracy, HShiftRight.hShiftRight, Nat.repeat]

lemma shiftToTargetExponent_full {e : ℤ} (he : -1074 ≤ e) :
    UnpackedFloat.shiftToTargetExponent .binary64 (2 ^ 53) e .exact =
      (⟨2 ^ 52, false, false⟩, e + 1) := by
  have hshift : (Format.binary64.targetExponent (totalExponent (2 ^ 53) e) - e).toNat = 1 := by
    rw [targetExponent_eq, totalExponent, Nat.log2_two_pow]
    omega
  simp only [UnpackedFloat.shiftToTargetExponent, UnpackedFloat.shiftToExponent, hshift]
  rfl

/-- The ways in which rounding goes: to zero, to a mantissa of the target exponent, or, if this has
got a bit too many, to a power of two. -/
lemma roundWithAccuracy_cases (s : Sign) {m : ℕ} {e : ℤ} (rest : Accuracy) {n : ℕ}
    (hn : e + n = Format.binary64.targetExponent (totalExponent m e)) :
    ∃ r, r = (ExtendedMantissa.ofMantissaAndAccuracy m rest >>> n).roundedMantissa ∧
      ((r = 0 ∧ e + n = -1074 ∧ UnpackedFloat.roundWithAccuracy .binary64 s m e rest = .zero s) ∨
        (∃ h : 0 < r, Canonical r (e + n) ∧
          UnpackedFloat.roundWithAccuracy .binary64 s m e rest = .finite s r (e + n) h) ∨
        (r = 2 ^ 53 ∧ Canonical (2 ^ 52) (e + n + 1) ∧
          UnpackedFloat.roundWithAccuracy .binary64 s m e rest =
            .finite s (2 ^ 52) (e + n + 1) (by positivity))) := by
  set first : ExtendedMantissa := .ofMantissaAndAccuracy m rest
  have hmantissa : first.mantissa = m := by
    rcases rest with _ | _ | _ | _ <;> rfl
  have hshift : UnpackedFloat.shiftToTargetExponent .binary64 m e rest = (first >>> n, e + n) := by
    have hcount : (Format.binary64.targetExponent (totalExponent m e) - e).toNat = n := by omega
    simp only [UnpackedFloat.shiftToTargetExponent, UnpackedFloat.shiftToExponent, hcount]
    rfl
  rw [targetExponent_eq, totalExponent] at hn
  have hmost : (first >>> n).roundedMantissa ≤ 2 ^ 53 := by
    refine roundedMantissa_le ?_
    rw [hmantissa]
    omega
  have hfull : 2 ^ 52 ≤ (first >>> n).roundedMantissa ∨ e + n = -1074 := by
    by_cases hleast : e + n = -1074
    · exact .inr hleast
    · have hne : m ≠ 0 := by
        rintro rfl
        simp at hn
        omega
      refine .inl (le_roundedMantissa (by rwa [hmantissa]) ?_)
      rw [hmantissa]
      omega
  refine ⟨_, rfl, ?_⟩
  unfold UnpackedFloat.roundWithAccuracy
  rw [hshift]
  dsimp only
  generalize (first >>> n).roundedMantissa = r at hmost hfull
  rcases Nat.lt_or_ge r (2 ^ 53) with hsmall | hbig
  · rw [shiftToTargetExponent_of_lt hsmall (by omega)]
    dsimp only
    rcases Nat.eq_zero_or_pos r with rfl | hpos
    · exact .inl ⟨rfl, by omega, rfl⟩
    · exact .inr (.inl ⟨hpos, ⟨hsmall, by omega, hfull⟩, dif_neg hpos.ne'⟩)
  · obtain rfl : r = 2 ^ 53 := by omega
    rw [shiftToTargetExponent_full (by omega)]
    exact .inr (.inr ⟨rfl, ⟨by norm_num, by omega, .inl le_rfl⟩, dif_neg (by norm_num)⟩)

/-- **Rounding** gives zero or a canonical float; and if the number is at most a power of two that
is a float, so is what it is rounded to. -/
lemma roundWithAccuracy_spec (s : Sign) {m : ℕ} {e : ℤ} {rest : Accuracy} {t : ℕ}
    (hdown : e ≤ Format.binary64.targetExponent (totalExponent m e))
    (hceil : ceiling (.ofMantissaAndAccuracy m rest) ≤ 2 ^ t) (ht : -1074 ≤ e + t) :
    UnpackedFloat.roundWithAccuracy .binary64 s m e rest = .zero s ∨
      ∃ (m' n : ℕ) (h : 0 < m'),
        UnpackedFloat.roundWithAccuracy .binary64 s m e rest = .finite s m' (e + n) h ∧
          Canonical m' (e + n) ∧ m' * 2 ^ n ≤ 2 ^ t := by
  obtain ⟨n, hn⟩ := Int.le.dest hdown
  have hlog : m.log2 ≤ t := by
    rcases eq_or_ne m 0 with rfl | hne
    · simp
    · have hm : m ≤ 2 ^ t := by
        refine le_trans ?_ hceil
        rcases rest with _ | _ | _ | _ <;> exact Nat.le_add_right _ _
      exact (Nat.pow_le_pow_iff_right one_lt_two).1 ((Nat.log2_self_le hne).trans hm)
  have hnt : n ≤ t := by
    rw [targetExponent_eq, totalExponent] at hn
    omega
  have hle := roundedMantissa_mul_le hceil hnt
  obtain ⟨r, hr, ⟨-, -, h⟩ | ⟨hpos, hc, h⟩ | ⟨hbig, hc, h⟩⟩ := roundWithAccuracy_cases s rest hn
  · exact .inl h
  · exact .inr ⟨r, n, hpos, h, hc, hr ▸ hle⟩
  · -- the mantissa has got a bit too many
    have hnext : e + (n + 1 : ℕ) = e + n + 1 := by
      push_cast
      ring
    refine .inr ⟨2 ^ 52, n + 1, by positivity, ?_, hnext ▸ hc, ?_⟩
    · rw [h]
      simp only [hnext]
    · rw [← hr, hbig] at hle
      calc 2 ^ 52 * 2 ^ (n + 1) = 2 ^ 53 * 2 ^ n := by ring
        _ ≤ 2 ^ t := hle

/-! ### Packing -/

lemma unpackSign_packComponents {spec : Format} (s : Sign) (e : BitVec spec.exponentBits)
    (m : BitVec spec.mantissaBitsWithoutImplicit) :
    UnpackedFloat.unpackSign (UnpackedFloat.packComponents spec s e m) = s.toBitVec := by
  ext i hi
  obtain rfl : i = 0 := by omega
  simp [UnpackedFloat.unpackSign, UnpackedFloat.packComponents, BitVec.getLsbD_append,
    BitVec.getElem_append]

lemma ofBitVec_toBitVec (s : Sign) : Sign.ofBitVec s.toBitVec = s := by
  cases s <;> rfl

lemma toNat_leadingOne (m : BitVec 52) : (1#1 ++ m).toNat = 2 ^ 52 + m.toNat := by
  rw [BitVec.toNat_append, ← Nat.shiftLeft_add_eq_or_of_lt (BitVec.isLt _)]
  rfl

section Kept

variable {m field : ℕ}

lemma toNat_field (h : field < 2 ^ 11) : (BitVec.ofNat 11 field).toNat = field := by
  rw [BitVec.toNat_ofNat, Nat.mod_eq_of_lt h]

lemma unpack_packComponents (s : Sign) (hfull : 2 ^ 52 ≤ m) (hlt : m < 2 ^ 53) (hpos : 0 < field)
    (hroom : field < 2047) (h : 0 < m) :
    UnpackedFloat.unpack .binary64 (UnpackedFloat.packComponents .binary64 s
      (BitVec.ofNat 11 field) (BitVec.ofNat 52 m)) = .finite s m (field - 1075) h := by
  have hexp := toNat_field (hroom.trans (by norm_num))
  have hones : BitVec.ofNat 11 field ≠ -1#11 := fun heq => by
    have := congrArg BitVec.toNat heq
    rw [hexp, show (-1#11).toNat = 2047 from rfl] at this
    omega
  have hzero : BitVec.ofNat 11 field ≠ 0#11 := fun heq => by
    have := congrArg BitVec.toNat heq
    rw [hexp, BitVec.toNat_zero] at this
    omega
  have hone : (1#1 ++ BitVec.ofNat 52 m).toNat = m := by
    rw [toNat_leadingOne, BitVec.toNat_ofNat]
    omega
  have hbias : (field : ℤ) - (Format.binary64.exponentBias + (52 : ℕ)) = field - 1075 := rfl
  unfold UnpackedFloat.unpack
  simp only [UnpackedFloat.unpackExponent_packComponents,
    UnpackedFloat.unpackMantissa_packComponents, unpackSign_packComponents, ofBitVec_toBitVec,
    if_neg hones, if_neg hzero, hone, hexp, hbias]

lemma unpack_packComponents_least (s : Sign) (hlow : m < 2 ^ 52) (h : 0 < m) :
    UnpackedFloat.unpack .binary64 (UnpackedFloat.packComponents .binary64 s
      0#11 (BitVec.ofNat 52 m)) = .finite s m (-1074) h := by
  have hsame : (BitVec.ofNat 52 m).toNat = m := by
    rw [BitVec.toNat_ofNat, Nat.mod_eq_of_lt hlow]
  have hne : BitVec.ofNat 52 m ≠ 0#52 := fun heq => by
    have := congrArg BitVec.toNat heq
    rw [hsame, BitVec.toNat_zero] at this
    omega
  unfold UnpackedFloat.unpack
  simp only [UnpackedFloat.unpackExponent_packComponents,
    UnpackedFloat.unpackMantissa_packComponents, unpackSign_packComponents, ofBitVec_toBitVec,
    dif_neg hne, hsame]
  rfl

/-- A float without an implicit leading bit is packed into its fields. -/
lemma pack_least (s : Sign) {e : ℤ} (hlow : m < 2 ^ 52) (h : 0 < m) (he : e = -1074) :
    UnpackedFloat.pack .binary64 (.finite s m e h) =
      UnpackedFloat.packComponents .binary64 s 0#11 (BitVec.ofNat 52 m) := by
  have hlog : m.log2 + 1 ≠ Format.binary64.mantissaBits := by
    have := (Nat.log2_lt h.ne').2 hlow
    change m.log2 + 1 ≠ 53
    omega
  subst he
  unfold UnpackedFloat.pack
  dsimp only
  rw [if_neg (by decide), if_neg hlog]

lemma pack_full (s : Sign) {e : ℤ} (hfull : 2 ^ 52 ≤ m) (hlt : m < 2 ^ 53) (h : 0 < m)
    (hroom : field < 2047) (he : e = field - 1075) :
    UnpackedFloat.pack .binary64 (.finite s m e h) =
      UnpackedFloat.packComponents .binary64 s (BitVec.ofNat 11 field) (BitVec.ofNat 52 m) := by
  have hlog : m.log2 + 1 = Format.binary64.mantissaBits :=
    congrArg (· + 1) ((Nat.log2_eq_iff h.ne').2 ⟨hfull, hlt⟩)
  have hbiased : (e + (Format.binary64.exponentBias : ℤ) +
      Format.binary64.mantissaBitsWithoutImplicit).toNat = field := by
    change (e + 1023 + 52).toNat = field
    omega
  unfold UnpackedFloat.pack
  dsimp only
  rw [hbiased, if_neg (by omega), if_pos hlog]

end Kept

/-- **A canonical float is kept**, if its exponent is within range. -/
lemma unpack_pack (s : Sign) {m : ℕ} {e : ℤ} (h : 0 < m) (hc : Canonical m e) (he : e ≤ 971) :
    (Float.Model.pack (.finite s m e h)).unpack = .finite s m e h := by
  obtain ⟨hlt, hleast, hfull⟩ := hc
  unfold Float.Model.unpack Float.Model.pack
  dsimp only
  by_cases hbits : 2 ^ 52 ≤ m
  · obtain ⟨field, hfield⟩ := Int.le.dest (show (-1075 : ℤ) ≤ e by omega)
    obtain rfl : (field : ℤ) - 1075 = e := by omega
    rw [pack_full s hbits hlt h (by omega) rfl]
    exact unpack_packComponents s hbits hlt (by omega) (by omega) h
  · have hlow : m < 2 ^ 52 := Nat.lt_of_not_le hbits
    obtain rfl : e = -1074 := hfull.resolve_left hbits
    rw [pack_least s hlow h rfl]
    exact unpack_packComponents_least s hlow h

lemma unpack_pack_zero (s : Sign) : (Float.Model.pack (.zero s)).unpack = .zero s := by
  cases s <;> rfl

/-! ### Numbers that are not large -/

/-- A float is zero or a positive number that is at most a power of two. -/
def AtMost (k : ℤ) (x : Float) : Prop :=
  x.toModel.unpack = .zero .positive ∨ ∃ (m : ℕ) (e : ℤ) (h : 0 < m),
    x.toModel.unpack = .finite .positive m e h ∧ Canonical m e ∧ (m : ℚ) * 2 ^ e ≤ 2 ^ k

variable {k : ℤ} {x : Float}

lemma exponent_le {m : ℕ} {e : ℤ} (h : 0 < m) (hle : (m : ℚ) * 2 ^ e ≤ 2 ^ k) : e ≤ k := by
  have hone : (1 : ℚ) ≤ m := by exact_mod_cast h
  have hpow : (2 : ℚ) ^ e ≤ 2 ^ k := by
    calc (2 : ℚ) ^ e = 1 * 2 ^ e := (one_mul _).symm
      _ ≤ m * 2 ^ e := by gcongr
      _ ≤ 2 ^ k := hle
  exact (zpow_le_zpow_iff_right₀ one_lt_two).1 hpow

lemma atMost_round {m : ℕ} {e : ℤ} {rest : Accuracy} {t : ℕ}
    (hdown : e ≤ Format.binary64.targetExponent (totalExponent m e))
    (hceil : ceiling (.ofMantissaAndAccuracy m rest) ≤ 2 ^ t) (hleast : -1074 ≤ e + t)
    (hrange : e + t ≤ 971) :
    AtMost (e + t) (.ofModel (.pack (.roundWithAccuracy .binary64 .positive m e rest))) := by
  obtain h | ⟨m', n, h, hround, hc, hle⟩ :=
    roundWithAccuracy_spec .positive hdown hceil hleast
  · left
    rw [h]
    rfl
  · right
    have hvalue : (m' : ℚ) * 2 ^ (e + n) ≤ 2 ^ (e + t) := by
      have hcast : (m' : ℚ) * 2 ^ n ≤ 2 ^ t := by exact_mod_cast hle
      rw [zpow_add₀ two_ne_zero, zpow_add₀ two_ne_zero, zpow_natCast, zpow_natCast,
        mul_left_comm]
      gcongr
    have hexp := exponent_le h hvalue
    refine ⟨m', e + n, h, ?_, hc, hvalue⟩
    rw [hround]
    exact unpack_pack .positive h hc (by omega)

lemma AtMost.isInf (h : AtMost k x) : x.isInf = false := by
  change x.toModel.unpack.isInf = false
  obtain h | ⟨m, e, hm, h, -⟩ := h <;> rw [h] <;> rfl

lemma AtMost.nonneg (h : AtMost k x) : 0.0 ≤ x := by
  have hzero : rank 0.0 = some (.mk 0 0 0) := rfl
  obtain h | ⟨m, e, hm, h, -⟩ := h
  · exact le_iff.2 ⟨_, _, hzero, congrArg unpackedRank h, le_rfl⟩
  · exact le_iff.2 ⟨_, _, hzero, congrArg unpackedRank h, (Rank.mk_lt.2 (by simp)).le⟩

lemma AtMost.le_one (h : AtMost 0 x) : x ≤ 1.0 := by
  have hone : rank 1.0 = some (.mk 1 (-52) (2 ^ 52)) := rfl
  obtain h | ⟨m, e, hm, h, hc, hle⟩ := h
  · exact le_iff.2 ⟨_, _, congrArg unpackedRank h, hone, (Rank.mk_lt.2 (by simp)).le⟩
  · refine le_iff.2 ⟨_, _, congrArg unpackedRank h, hone, ?_⟩
    have hexp : e ≤ -52 := by
      obtain hfull | rfl := hc.full
      · have : (2 : ℚ) ^ (52 + e) ≤ 2 ^ (0 : ℤ) := by
          rw [zpow_add₀ two_ne_zero]
          refine le_trans ?_ hle
          gcongr
          exact_mod_cast hfull
        have := (zpow_le_zpow_iff_right₀ one_lt_two).1 this
        omega
      · norm_num
    rcases hexp.lt_or_eq with hlt | rfl
    · exact (Rank.mk_lt.2 (.inr ⟨rfl, .inl hlt⟩)).le
    · have hm' : m ≤ 2 ^ 52 := by
        rw [zpow_neg, mul_inv_le_iff₀ (by positivity)] at hle
        norm_num at hle
        exact_mod_cast hle
      rcases hm'.lt_or_eq with hlt | rfl
      · exact (Rank.mk_lt.2 (.inr ⟨rfl, .inr ⟨rfl, by exact_mod_cast hlt⟩⟩)).le
      · exact le_rfl

lemma ceiling_fraction {a b t : ℕ} (h : a ≤ b * 2 ^ t) :
    ceiling (.ofMantissaAndAccuracy (a / b) (UnpackedFloat.accuracyOfFraction (a % b) b)) ≤
      2 ^ t := by
  have hdiv : a / b ≤ 2 ^ t := Nat.div_le_of_le_mul h
  unfold UnpackedFloat.accuracyOfFraction
  split
  · exact hdiv
  · rename_i hrest
    have hlt : a / b < 2 ^ t := by
      refine hdiv.lt_of_ne fun heq => hrest ?_
      have := Nat.div_add_mod a b
      rw [heq] at this
      omega
    generalize compare (2 * (a % b)) b = side
    cases side <;> exact hlt

lemma le_log2_quotient {a b shift : ℕ} (ha : 0 < a) (hb : 0 < b)
    (h : 53 + b.log2 ≤ a.log2 + shift) : 52 ≤ (a * 2 ^ shift / b).log2 := by
  have hsize : 2 ^ 52 ≤ a * 2 ^ shift / b := by
    rw [Nat.le_div_iff_mul_le hb]
    calc 2 ^ 52 * b ≤ 2 ^ 52 * 2 ^ (b.log2 + 1) := by
          gcongr
          exact Nat.lt_log2_self.le
      _ = 2 ^ (53 + b.log2) := by ring
      _ ≤ 2 ^ a.log2 * 2 ^ shift := by
          rw [← pow_add]
          exact Nat.pow_le_pow_right two_pos h
      _ ≤ a * 2 ^ shift := by
          gcongr
          exact Nat.log2_self_le ha.ne'
  exact (Nat.le_log2 (by omega)).2 hsize

lemma divCore_eq {m₁ m₂ : ℕ} (e₁ e₂ : ℤ) (h₁ : 0 < m₁) (h₂ : 0 < m₂) :
    ∃ (shift : ℕ) (e : ℤ), e + shift = e₁ - e₂ ∧
      UnpackedFloat.divCore .binary64 m₁ e₁ m₂ e₂ = (m₁ * 2 ^ shift / m₂, e,
        UnpackedFloat.accuracyOfFraction (m₁ * 2 ^ shift % m₂) m₂) ∧
      e ≤ Format.binary64.targetExponent (totalExponent (m₁ * 2 ^ shift / m₂) e) := by
  obtain ⟨e, he⟩ : ∃ e : ℤ, e = min (e₁ - e₂)
      (Format.binary64.targetExponent (totalExponent m₁ e₁ - totalExponent m₂ e₂)) := ⟨_, rfl⟩
  obtain ⟨shift, hshift⟩ := Int.le.dest (show e ≤ e₁ - e₂ by omega)
  refine ⟨shift, e, hshift, ?_, ?_⟩
  · unfold UnpackedFloat.divCore
    rw [← he]
    have hcount : (e₁ - e₂ - e).toNat = shift := by omega
    simp [Nat.shiftLeft_eq, hcount]
  · rw [targetExponent_eq, totalExponent, totalExponent] at he
    rw [targetExponent_eq, totalExponent]
    by_cases hleast : e ≤ -1074
    · omega
    · have hbits := le_log2_quotient h₁ h₂ (show 53 + m₂.log2 ≤ m₁.log2 + shift by omega)
      omega

lemma atMost_nearestRatio {a b : ℕ} (ha : 0 < a) (h : a ≤ b) : AtMost 0 (nearestRatio a b) := by
  obtain ⟨shift, e, he, hcore, hdown⟩ := divCore_eq 0 0 ha (ha.trans_le h)
  have hlog : a.log2 ≤ b.log2 :=
    (Nat.le_log2 (ha.trans_le h).ne').2 ((Nat.log2_self_le ha.ne').trans h)
  have hceil : ceiling (.ofMantissaAndAccuracy (a * 2 ^ shift / b)
      (UnpackedFloat.accuracyOfFraction (a * 2 ^ shift % b) b)) ≤ 2 ^ shift :=
    ceiling_fraction (by gcongr)
  have hround := atMost_round hdown hceil (by omega) (by omega)
  rw [he] at hround
  unfold nearestRatio
  rw [hcore]
  exact hround

/-- **A share of a whole** is a float from zero to one. -/
lemma quotient_share {i n : ℤ} (hi : 0 ≤ i) (hin : i ≤ n) (hn : 0 < n) :
    ∃ x, quotient i n = .ok x ∧ 0.0 ≤ x ∧ x ≤ 1.0 := by
  unfold quotient
  rw [if_neg hn.ne']
  split
  · rw [if_neg hn.not_gt]
    exact ⟨_, rfl, by decide +kernel, by decide +kernel⟩
  · have hsize : AtMost 0 (nearestRatio i.natAbs n.natAbs) :=
      atMost_nearestRatio (by omega) (by omega)
    have hsign : ¬ (i < 0) ≠ (n < 0) := by simp [hi.not_gt, hn.not_gt]
    dsimp only
    rw [hsize.isInf, if_neg Bool.false_ne_true, if_neg hsign]
    exact ⟨_, rfl, hsize.nonneg, hsize.le_one⟩

/-! ### Whole numbers as floats -/

lemma toFloat_eq (n : ℕ) (h : n < 2 ^ 53) : Float.ofNat n = n.toUInt64.toFloat * 1.0 := by
  change Float.ofScientific n false 0 = _
  rw [Float.ofScientific, dif_pos ⟨h, Nat.zero_le _⟩]
  rfl

lemma shiftRight_exact (m n : ℕ) :
    (ExtendedMantissa.ofMantissaAndAccuracy (m * 2 ^ n) .exact) >>> n = ⟨m, false, false⟩ := by
  induction n generalizing m with
  | zero => simp [HShiftRight.hShiftRight, Nat.repeat, ExtendedMantissa.ofMantissaAndAccuracy]
  | succ n ih =>
    rw [shiftRight_succ, pow_succ', ← mul_assoc, ih]
    simp [ExtendedMantissa.shiftRightOne]

/-- **What is a float already** is not changed by rounding, however many zeros its mantissa
has got. -/
lemma roundWithAccuracy_exact (s : Sign) {m : ℕ} {e : ℤ} (hc : Canonical m e) (h : 0 < m) (n : ℕ) :
    UnpackedFloat.roundWithAccuracy .binary64 s (m * 2 ^ n) (e - n) .exact = .finite s m e h := by
  have hlog : (m * 2 ^ n).log2 = m.log2 + n := by
    rw [Nat.log2_eq_iff (by positivity), pow_add, Nat.add_right_comm, pow_add]
    exact ⟨Nat.mul_le_mul_right _ (Nat.log2_self_le h.ne'),
      Nat.mul_lt_mul_of_pos_right Nat.lt_log2_self (by positivity)⟩
  have hlt : m.log2 < 53 := (Nat.log2_lt h.ne').2 hc.lt
  have hleast := hc.least_le
  have htarget : e - n + n =
      Format.binary64.targetExponent (totalExponent (m * 2 ^ n) (e - n)) := by
    rw [targetExponent_eq, totalExponent, hlog]
    rcases hc.full with hfull | hfull
    · have : 52 ≤ m.log2 := (Nat.le_log2 h.ne').2 hfull
      omega
    · omega
  obtain ⟨r, hr, hcases⟩ := roundWithAccuracy_cases s .exact htarget
  rw [shiftRight_exact] at hr
  obtain rfl : r = m := hr
  rcases hcases with ⟨hzero, -⟩ | ⟨hpos, -, hround⟩ | ⟨hbig, -⟩
  · exact absurd hzero h.ne'
  · rw [hround]
    simp only [sub_add_cancel]
  · exact absurd hbig hc.lt.ne

/-- **A whole number of at most fifty-three bits** is a float. -/
lemma unpack_ofInt {n : ℤ} (hn : 0 < n) (hlt : n < 2 ^ 53) :
    ∃ (m : ℕ) (e : ℤ) (h : 0 < m), (Float.ofInt n).toModel.unpack = .finite .positive m e h ∧
      Canonical m e ∧ e ≤ 0 ∧ (m : ℚ) * 2 ^ e = n := by
  obtain ⟨k, rfl⟩ := Int.eq_ofNat_of_zero_le hn.le
  have hk : 0 < k := by exact_mod_cast hn
  have hkt : k < 2 ^ 53 := by exact_mod_cast hlt
  have hlog : k.log2 < 53 := (Nat.log2_lt hk.ne').2 hkt
  obtain ⟨shift, hshift⟩ := Nat.le.dest (Nat.le_of_lt_succ hlog)
  have hc : Canonical (k * 2 ^ shift) (-shift) := by
    refine ⟨?_, by omega, .inl ?_⟩
    · calc k * 2 ^ shift < 2 ^ (k.log2 + 1) * 2 ^ shift :=
            Nat.mul_lt_mul_of_pos_right Nat.lt_log2_self (by positivity)
        _ = 2 ^ 53 := by rw [← pow_add, Nat.add_right_comm, hshift]
    · calc 2 ^ 52 = 2 ^ k.log2 * 2 ^ shift := by rw [← pow_add, hshift]
        _ ≤ k * 2 ^ shift := Nat.mul_le_mul_right _ (Nat.log2_self_le hk.ne')
  have hpos : 0 < k * 2 ^ shift := by positivity
  have hround : UnpackedFloat.round .binary64 .positive k 0 =
      .finite .positive (k * 2 ^ shift) (-shift) hpos := by
    have hcount : ((0 : ℤ) - Format.binary64.targetExponent (totalExponent k 0)).toNat = shift := by
      rw [targetExponent_eq, totalExponent]
      omega
    have hexact := roundWithAccuracy_exact .positive hc hpos 0
    unfold UnpackedFloat.round UnpackedFloat.decreaseExponent
    dsimp only
    rw [hcount, Nat.shiftLeft_eq, zero_sub]
    simpa using hexact
  have hfloat : k.toUInt64.toFloat.toModel.unpack =
      .finite .positive (k * 2 ^ shift) (-shift) hpos := by
    have hsize : k.toUInt64.toNat = k := Nat.mod_eq_of_lt (hkt.trans (by norm_num))
    change (Float.Model.pack (.normalize .binary64 (k.toUInt64.toNat : ℤ) 0 .positive)).unpack = _
    rw [hsize, UnpackedFloat.normalize, Int.compare_eq_gt.2 (by exact_mod_cast hk)]
    change (Float.Model.pack (UnpackedFloat.round .binary64 .positive k 0)).unpack = _
    rw [hround]
    exact unpack_pack .positive hpos hc (by omega)
  have hone : (1.0 : Float).toModel.unpack = .finite .positive (2 ^ 52) (-52) (by norm_num) := rfl
  refine ⟨k * 2 ^ shift, -shift, hpos, ?_, hc, by omega, ?_⟩
  · change (Float.ofNat k).toModel.unpack = _
    rw [toFloat_eq k hkt]
    change (Float.Model.pack (UnpackedFloat.mul .binary64 k.toUInt64.toFloat.toModel.unpack
      (1.0 : Float).toModel.unpack)).unpack = _
    rw [hfloat, hone]
    change (Float.Model.pack (UnpackedFloat.roundWithAccuracy .binary64 .positive
      (k * 2 ^ shift * 2 ^ 52) (-shift - (52 : ℕ)) .exact)).unpack = _
    rw [roundWithAccuracy_exact .positive hc hpos 52]
    exact unpack_pack .positive hpos hc (by omega)
  · push_cast
    rw [zpow_neg, zpow_natCast, mul_assoc, mul_inv_cancel₀ (by positivity), mul_one]

/-- A whole number of more than fifty-three bits, as a float. -/
lemma ofNat_large {n : ℕ} (hlow : 2 ^ 53 ≤ n) : Float.ofNat n =
    .ofModel (.pack (.roundWithAccuracy .binary64 .positive (n <<< 53) (-53) .exact)) := by
  have hne : n ≠ 0 := by omega
  have hmul (m : ℕ) (hm : 0 < m) (hone : 0 < 10 ^ (0 : ℤ).toNat) :
      UnpackedFloat.mul .binary64 (.finite .positive m (-53) hm) (.finite .positive _ 0 hone) =
        .roundWithAccuracy .binary64 .positive m (-53) .exact := by
    change UnpackedFloat.roundWithAccuracy .binary64 .positive (m * 1) (-53) .exact = _
    rw [mul_one]
  have hscientific : UnpackedFloat.ofScientific .binary64 n 0 =
      .roundWithAccuracy .binary64 .positive (n <<< 53) (-53) .exact := by
    have hbits : (0 : ℤ) ≤ 2 ^ Format.binary64.exponentBits := by positivity
    unfold UnpackedFloat.ofScientific
    rw [dif_neg hne, if_neg (by decide), if_neg (by omega), if_pos le_rfl]
    exact hmul _ _ _
  change Float.ofScientific n false 0 = _
  rw [Float.ofScientific, dif_neg (by omega)]
  exact congrArg (fun x => Float.ofModel (.pack x)) hscientific

/-- A whole number of more than fifty-three bits is rounded to at most the next power of two. -/
lemma atMost_ofNat {n t : ℕ} (hlow : 2 ^ 53 ≤ n) (hn : n ≤ 2 ^ t) (ht : t ≤ 971) :
    AtMost t (Float.ofNat n) := by
  rw [ofNat_large hlow, Nat.shiftLeft_eq]
  have hlog : 106 ≤ (n * 2 ^ 53).log2 := by
    rw [Nat.le_log2 (by positivity)]
    calc 2 ^ 106 = 2 ^ 53 * 2 ^ 53 := by rw [← pow_add]
      _ ≤ n * 2 ^ 53 := Nat.mul_le_mul_right _ hlow
  have hceil : n * 2 ^ 53 ≤ 2 ^ (53 + t) := by
    calc n * 2 ^ 53 ≤ 2 ^ t * 2 ^ 53 := Nat.mul_le_mul_right _ hn
      _ = 2 ^ (53 + t) := by rw [← pow_add, Nat.add_comm]
  generalize n * 2 ^ 53 = m at hlog hceil ⊢
  have hdown : -53 ≤ Format.binary64.targetExponent (totalExponent m (-53)) := by
    rw [targetExponent_eq, totalExponent]
    omega
  have hsum : (-53 : ℤ) + (53 + t : ℕ) = t := by omega
  have hround : AtMost (-53 + (53 + t : ℕ))
      (.ofModel (.pack (.roundWithAccuracy .binary64 .positive m (-53) .exact))) :=
    atMost_round hdown hceil (by omega) (by omega)
  rwa [hsum] at hround

/-- **A whole number of at most sixty-three bits** is within the range of floats. -/
lemma isInf_ofInt {n : ℤ} (hn : 0 < n) (h : n < 2 ^ 63) : (Float.ofInt n).isInf = false := by
  rcases lt_or_ge n (2 ^ 53) with hlt | hge
  · obtain ⟨m, e, hpos, hfloat, -⟩ := unpack_ofInt hn hlt
    change (Float.ofInt n).toModel.unpack.isInf = false
    rw [hfloat]
    rfl
  · obtain ⟨k, rfl⟩ := Int.eq_ofNat_of_zero_le hn.le
    have hlow : 2 ^ 53 ≤ k := by exact_mod_cast hge
    have hhigh : k < 2 ^ 63 := by exact_mod_cast h
    exact (atMost_ofNat hlow hhigh.le (by norm_num)).isInf

end SoundAtlas.Number
