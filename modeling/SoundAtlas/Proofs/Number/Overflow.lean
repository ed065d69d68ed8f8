import SoundAtlas.Proofs.Number.Packing

/-!
When a quotient is beyond the range of floats. It is rounded to infinity from the midpoint on
between the greatest float and the next power of two; the root of a finite float is finite. The
parts of a float, by its bits, are those by which arithmetic knows it.
-/

namespace SoundAtlas.Number

open Float.Model
open Float.Model.UnpackedFloat (Accuracy ExtendedMantissa Sign)

variable {x y : Float} {m : ℕ} {e : ℤ}

/-! ### Halves -/

/-- How many halves a mantissa with residual bits has. -/
def halves (x : ExtendedMantissa) : ℕ :=
  2 * x.mantissa + x.roundBit.toNat

lemma halves_shiftRight (x : ExtendedMantissa) (n : ℕ) : halves (x >>> n) = halves x / 2 ^ n := by
  induction n with
  | zero => simp [HShiftRight.hShiftRight, Nat.repeat]
  | succ n ih =>
    have hone (x : ExtendedMantissa) : halves x.shiftRightOne = halves x / 2 := by
      obtain ⟨m, round, sticky⟩ := x
      rcases Nat.mod_two_eq_zero_or_one m with h | h <;> cases round <;>
        simp [halves, ExtendedMantissa.shiftRightOne, h] <;> omega
    rw [shiftRight_succ, hone, ih, Nat.div_div_eq_div_mul, pow_succ]

lemma halves_fraction (a : ℕ) {b : ℕ} (hb : 0 < b) :
    halves (.ofMantissaAndAccuracy (a / b) (UnpackedFloat.accuracyOfFraction (a % b) b)) =
      2 * a / b := by
  have ha := Nat.div_add_mod a b
  have hlt := Nat.mod_lt a hb
  set q := a / b
  set r := a % b
  have htwice : 2 * a = 2 * r + 2 * q * b := by
    rw [← ha]
    ring
  rw [htwice, Nat.add_mul_div_right _ _ hb]
  unfold UnpackedFloat.accuracyOfFraction
  split
  · rename_i h
    rw [h, mul_zero, Nat.zero_div]
    simp [halves, ExtendedMantissa.ofMantissaAndAccuracy]
  · rcases hcmp : compare (2 * r) b with _ | _ | _
    · have := Nat.compare_eq_lt.1 hcmp
      rw [Nat.div_eq_of_lt this]
      simp [halves, ExtendedMantissa.ofMantissaAndAccuracy]
    · have := Nat.compare_eq_eq.1 hcmp
      rw [this, Nat.div_self hb, add_comm]
      rfl
    · have := Nat.compare_eq_gt.1 hcmp
      rw [Nat.div_eq_of_lt_le (k := 1) (by omega) (by omega), add_comm]
      rfl

lemma le_roundedMantissa_iff {x : ExtendedMantissa} {k : ℕ} (heven : k % 2 = 0) :
    k ≤ x.roundedMantissa ↔ 2 * k - 1 ≤ halves x := by
  obtain ⟨m, round, sticky⟩ := x
  cases round <;> cases sticky <;>
    simp [halves, ExtendedMantissa.roundedMantissa, ExtendedMantissa.accuracy,
      Accuracy.roundToNearestEven] <;> omega

/-! ### Infinity -/

/-- The midpoint between the greatest float and the next power of two. -/
def overflowPoint : ℚ :=
  (2 ^ 54 - 1) * 2 ^ 970

lemma pow_le_overflowPoint : (2 : ℚ) ^ (1023 : ℤ) ≤ overflowPoint := by
  have hsplit : (2 : ℚ) ^ (1023 : ℤ) = 2 ^ 53 * 2 ^ 970 := by
    rw [← pow_add]
    exact zpow_natCast 2 1023
  rw [hsplit, overflowPoint]
  gcongr
  norm_num

lemma overflowPoint_le_pow : overflowPoint ≤ (2 : ℚ) ^ (1024 : ℤ) := by
  have hsplit : (2 : ℚ) ^ (1024 : ℤ) = 2 ^ 54 * 2 ^ 970 := by
    rw [← pow_add]
    exact zpow_natCast 2 1024
  rw [hsplit, overflowPoint]
  gcongr
  norm_num

/-- A canonical float is packed as an infinity if its exponent is not within range. -/
lemma unpack_pack_large (s : Sign) (h : 0 < m) (he : 971 < e) :
    (Float.Model.pack (.finite s m e h)).unpack = .infinity s := by
  have hroom : 2 ^ 11 ≤ (e + 1023 + 52).toNat + 1 := by omega
  have hpacked : Float.Model.pack (.finite s m e h) = Float.Model.pack (.infinity s) := by
    have hbits : UnpackedFloat.pack .binary64 (.finite s m e h) =
        UnpackedFloat.pack .binary64 (.infinity s) := if_pos hroom
    unfold Float.Model.pack
    simp only [hbits]
  rw [hpacked]
  cases s <;> rfl

lemma isInf_pack (s : Sign) (h : 0 < m) (hc : Canonical m e) :
    (Float.Model.pack (.finite s m e h)).unpack.isInf = true ↔ 971 < e := by
  rcases le_or_gt e 971 with he | he
  · rw [unpack_pack s h hc he]
    simpa [UnpackedFloat.isInf] using he
  · rw [unpack_pack_large s h he]
    exact iff_of_true rfl he

lemma isNaN_round (s : Sign) {rest : Accuracy}
    (hdown : e ≤ Format.binary64.targetExponent (totalExponent m e)) :
    (Float.Model.pack (.roundWithAccuracy .binary64 s m e rest)).unpack.isNaN = false := by
  have hfinite {m : ℕ} {e : ℤ} {h : 0 < m} (hc : Canonical m e) :
      (Float.Model.pack (.finite s m e h)).unpack.isNaN = false := by
    rcases le_or_gt e 971 with he | he
    · rw [unpack_pack s h hc he]
      rfl
    · rw [unpack_pack_large s h he]
      rfl
  obtain ⟨n, hn⟩ := Int.le.dest hdown
  obtain ⟨r, -, ⟨-, -, h⟩ | ⟨hpos, hc, h⟩ | ⟨-, hc, h⟩⟩ := roundWithAccuracy_cases s rest hn
  · rw [h, unpack_pack_zero]
    rfl
  · rw [h]
    exact hfinite hc
  · rw [h]
    exact hfinite hc

/-- Rounding goes to infinity if the target exponent is beyond the last one, or if it is the last
one and the mantissa gets a bit too many. -/
lemma isInf_round (s : Sign) (rest : Accuracy) {n : ℕ}
    (hn : e + n = Format.binary64.targetExponent (totalExponent m e)) :
    (Float.Model.pack (.roundWithAccuracy .binary64 s m e rest)).unpack.isInf = true ↔
      971 < e + n ∨
        e + n = 971 ∧ 2 ^ 53 ≤
          (ExtendedMantissa.ofMantissaAndAccuracy m rest >>> n).roundedMantissa := by
  obtain ⟨r, hr, hcases⟩ := roundWithAccuracy_cases s rest hn
  rw [← hr]
  rcases hcases with ⟨rfl, he, h⟩ | ⟨hpos, hc, h⟩ | ⟨rfl, hc, h⟩
  · rw [h, unpack_pack_zero]
    refine iff_of_false Bool.false_ne_true ?_
    omega
  · rw [h, isInf_pack s hpos hc]
    have := hc.lt
    omega
  · rw [h, isInf_pack s _ hc]
    omega

section Fraction

variable {a b : ℕ}

/-- A fraction below the last power of two does not reach the midpoint. -/
lemma lt_overflowPoint (hb : 0 < b) (h : ((a / b).log2 : ℤ) + 1 + e ≤ 1023) :
    (a : ℚ) * 2 ^ e < overflowPoint * b := by
  have hlt : a < 2 ^ ((a / b).log2 + 1) * b :=
    (Nat.div_lt_iff_lt_mul hb).1 Nat.lt_log2_self
  have hb' : (0 : ℚ) < b := by exact_mod_cast hb
  calc (a : ℚ) * 2 ^ e < 2 ^ ((a / b).log2 + 1) * b * 2 ^ e := by
        gcongr
        exact_mod_cast hlt
    _ = 2 ^ (((a / b).log2 : ℤ) + 1 + e) * b := by
        rw [zpow_add₀ two_ne_zero, ← Nat.cast_add_one, zpow_natCast]
        ring
    _ ≤ 2 ^ (1023 : ℤ) * b := by
        gcongr
        norm_num
    _ ≤ overflowPoint * b := by
        gcongr
        exact pow_le_overflowPoint

lemma overflowPoint_le (hne : a / b ≠ 0) (h : 1024 ≤ ((a / b).log2 : ℤ) + e) :
    overflowPoint * b ≤ a * 2 ^ e := by
  have hle : 2 ^ (a / b).log2 * b ≤ a :=
    (Nat.mul_le_mul_right b (Nat.log2_self_le hne)).trans (Nat.div_mul_le_self a b)
  calc overflowPoint * b ≤ 2 ^ (1024 : ℤ) * b := by
        gcongr
        exact overflowPoint_le_pow
    _ ≤ 2 ^ (((a / b).log2 : ℤ) + e) * b := by
        gcongr
        norm_num
    _ = 2 ^ (a / b).log2 * b * 2 ^ e := by
        rw [zpow_add₀ two_ne_zero, zpow_natCast]
        ring
    _ ≤ a * 2 ^ e := by
        gcongr
        exact_mod_cast hle

/-- With the last exponent the midpoint is a half above a mantissa of all ones. -/
lemma overflowPoint_le_iff {n : ℕ} (hlast : e + n = 971) :
    (2 ^ 54 - 1) * (b * 2 ^ n) ≤ 2 * a ↔ overflowPoint * b ≤ a * 2 ^ e := by
  have hsum : (2 : ℚ) ^ e * 2 ^ n = 2 * 2 ^ 970 := by
    rw [← zpow_natCast, ← zpow_add₀ two_ne_zero, hlast, ← pow_succ']
    exact zpow_natCast 2 971
  have hleft : ((2 : ℚ) ^ 54 - 1) * (b * 2 ^ n) * 2 ^ e = 2 * (overflowPoint * b) := by
    calc ((2 : ℚ) ^ 54 - 1) * (b * 2 ^ n) * 2 ^ e = (2 ^ 54 - 1) * b * (2 ^ e * 2 ^ n) := by ring
      _ = 2 * (overflowPoint * b) := by
        rw [hsum, overflowPoint]
        generalize (2 : ℚ) ^ 970 = top
        ring
  have hcast : (2 ^ 54 - 1) * (b * 2 ^ n) ≤ 2 * a ↔
      ((2 : ℚ) ^ 54 - 1) * (b * 2 ^ n) ≤ 2 * a := by
    rw [← Nat.cast_le (α := ℚ)]
    norm_num
  rw [hcast, ← mul_le_mul_iff_left₀ (show (0 : ℚ) < 2 ^ e by positivity), hleft, mul_assoc,
    mul_le_mul_iff_right₀ two_pos]

/-- **A fraction is rounded to infinity** exactly from the midpoint on. -/
lemma isInf_round_fraction (s : Sign) (hb : 0 < b)
    (hdown : e ≤ Format.binary64.targetExponent (totalExponent (a / b) e)) :
    (Float.Model.pack (.roundWithAccuracy .binary64 s (a / b) e
      (UnpackedFloat.accuracyOfFraction (a % b) b))).unpack.isInf = true ↔
        overflowPoint * b ≤ a * 2 ^ e := by
  obtain ⟨n, hn⟩ := Int.le.dest hdown
  rw [isInf_round s _ hn]
  rw [targetExponent_eq, totalExponent] at hn
  rcases lt_trichotomy (e + n) 971 with hlow | hlast | hhigh
  · exact iff_of_false (by omega) (not_le.2 (lt_overflowPoint hb (by omega)))
  · rw [or_iff_right (by omega), and_iff_right hlast, le_roundedMantissa_iff (by norm_num),
      halves_shiftRight, halves_fraction a hb, Nat.div_div_eq_div_mul,
      Nat.le_div_iff_mul_le (by positivity)]
    exact overflowPoint_le_iff hlast
  · have hne : a / b ≠ 0 := by
      intro hzero
      rw [hzero] at hn
      simp at hn
      omega
    exact iff_of_true (.inl hhigh) (overflowPoint_le hne (by omega))

end Fraction

lemma unpack_div {u v w : UnpackedFloat} (hx : x.toModel.unpack = u) (hy : y.toModel.unpack = v)
    (h : UnpackedFloat.div .binary64 u v = w) :
    (x / y).toModel.unpack = (Float.Model.pack w).unpack := by
  change (Float.Model.pack (x.toModel.unpack.div .binary64 y.toModel.unpack)).unpack = _
  rw [hx, hy, h]

/-- **A quotient of positive numbers** is infinite exactly from the midpoint on, and else it is
finite and not negative. -/
lemma div_cases {m₁ m₂ : ℕ} {e₁ e₂ : ℤ} {h₁ : 0 < m₁} {h₂ : 0 < m₂}
    (hx : x.toModel.unpack = .finite .positive m₁ e₁ h₁)
    (hy : y.toModel.unpack = .finite .positive m₂ e₂ h₂) :
    (overflowPoint * (m₂ * 2 ^ e₂) ≤ m₁ * 2 ^ e₁ ∧ (x / y).toModel.unpack = .infinity .positive) ∨
      (¬ overflowPoint * (m₂ * 2 ^ e₂) ≤ m₁ * 2 ^ e₁ ∧ ((x / y).toModel.unpack = .zero .positive ∨
        ∃ m e h, (x / y).toModel.unpack = .finite .positive m e h)) := by
  obtain ⟨shift, e, he, hcore, hdown⟩ := divCore_eq e₁ e₂ h₁ h₂
  obtain ⟨u, hu⟩ : ∃ u, u = UnpackedFloat.roundWithAccuracy .binary64 .positive
      (m₁ * 2 ^ shift / m₂) e (UnpackedFloat.accuracyOfFraction (m₁ * 2 ^ shift % m₂) m₂) :=
        ⟨_, rfl⟩
  have hdiv : (x / y).toModel.unpack = (Float.Model.pack u).unpack := by
    refine unpack_div hx hy ?_
    rw [UnpackedFloat.div, hcore, hu]
    rfl
  have hscale : (2 : ℚ) ^ shift * 2 ^ e * 2 ^ e₂ = 2 ^ e₁ := by
    rw [← zpow_natCast, ← zpow_add₀ two_ne_zero, ← zpow_add₀ two_ne_zero]
    congr 1
    omega
  have hinfinite : (x / y).toModel.unpack.isInf = true ↔
      overflowPoint * (m₂ * 2 ^ e₂) ≤ m₁ * 2 ^ e₁ := by
    rw [hdiv, hu, isInf_round_fraction .positive h₂ hdown,
      ← mul_le_mul_iff_left₀ (show (0 : ℚ) < 2 ^ e₂ by positivity)]
    push_cast
    rw [mul_assoc, mul_assoc (m₁ : ℚ), mul_assoc (m₁ : ℚ), hscale]
  have hnumber : (x / y).toModel.unpack.isNaN = false := by
    rw [hdiv, hu]
    exact isNaN_round .positive hdown
  have hsign : Unsigned (x / y).toModel.unpack := by
    rw [hdiv, hu]
    exact (unsigned_round ..).pack
  rw [← hinfinite]
  revert hnumber hsign
  rcases (x / y).toModel.unpack with (_ | _) | _ | (_ | _) | ⟨_ | _, m, e, h⟩ <;>
    intro hnumber hsign
  case infinity.positive => exact .inl ⟨rfl, rfl⟩
  case zero.positive => exact .inr ⟨Bool.false_ne_true, .inl rfl⟩
  case finite.positive => exact .inr ⟨Bool.false_ne_true, .inr ⟨m, e, h, rfl⟩⟩
  case notANumber => cases hnumber
  all_goals exact hsign.elim

/-! ### Fields -/

section Fields

variable (bits : BitVec 64)

lemma toNat_exponent :
    (@UnpackedFloat.unpackExponent .binary64 bits).toNat = (bits.toNat >>> 52) % 2048 :=
  BitVec.extractLsb_toNat ..

lemma toNat_mantissa :
    (@UnpackedFloat.unpackMantissa .binary64 bits).toNat = bits.toNat % 2 ^ 52 :=
  BitVec.extractLsb_toNat ..

lemma ofBitVec_sign : (Sign.ofBitVec (@UnpackedFloat.unpackSign .binary64 bits) == .negative) =
    ((bits.toNat >>> 63) % 2 == 1) := by
  have hsign : (@UnpackedFloat.unpackSign .binary64 bits).toNat = (bits.toNat >>> 63) % 2 :=
    BitVec.extractLsb_toNat ..
  rw [← hsign]
  generalize @UnpackedFloat.unpackSign .binary64 bits = s
  decide +revert

lemma toNat_exponent_eq_ones : (@UnpackedFloat.unpackExponent .binary64 bits).toNat = 2047 ↔
    @UnpackedFloat.unpackExponent .binary64 bits = -1#11 :=
  BitVec.toNat_inj (y := -1#11)

lemma toNat_exponent_eq_zero : (@UnpackedFloat.unpackExponent .binary64 bits).toNat = 0 ↔
    @UnpackedFloat.unpackExponent .binary64 bits = 0#11 :=
  BitVec.toNat_inj (y := 0#11)

lemma toNat_mantissa_eq_zero : (@UnpackedFloat.unpackMantissa .binary64 bits).toNat = 0 ↔
    @UnpackedFloat.unpackMantissa .binary64 bits = 0#52 :=
  BitVec.toNat_inj (y := 0#52)

end Fields

def Parts.ofUnpacked : UnpackedFloat → Parts
  | .notANumber => .notANumber
  | .infinity s => .infinite (s == .negative)
  | .zero s => .finite (s == .negative) 0 (-1074)
  | .finite s m e _ => .finite (s == .negative) m e

/-- **The parts of a float** are those that arithmetic takes it apart into. -/
lemma parts_eq (x : Float) : parts x = .ofUnpacked x.toModel.unpack := by
  obtain ⟨⟨⟨bits⟩, hvalid⟩⟩ := x
  change Parts.ofBits bits.toNat = .ofUnpacked (UnpackedFloat.unpack .binary64 bits)
  unfold Parts.ofBits UnpackedFloat.unpack
  dsimp only
  rw [← toNat_exponent, ← ofBitVec_sign, show leadingOne = 2 ^ 52 from rfl, ← toNat_mantissa]
  simp only [toNat_exponent_eq_ones, toNat_exponent_eq_zero, toNat_mantissa_eq_zero]
  by_cases hones : @UnpackedFloat.unpackExponent .binary64 bits = -1#11
  · by_cases hwhole : @UnpackedFloat.unpackMantissa .binary64 bits = 0#52
    · rw [if_pos hones, if_pos hwhole, if_pos hones, if_pos hwhole]
      rfl
    · rw [if_pos hones, if_neg hwhole, if_pos hones, if_neg hwhole]
      rfl
  · by_cases hleast : @UnpackedFloat.unpackExponent .binary64 bits = 0#11
    · by_cases hwhole : @UnpackedFloat.unpackMantissa .binary64 bits = 0#52
      · rw [if_neg hones, if_pos hleast, if_neg hones, if_pos hleast, dif_pos hwhole, hwhole]
        rfl
      · rw [if_neg hones, if_pos hleast, if_neg hones, if_pos hleast, dif_neg hwhole, hleast]
        rfl
    · have hone := toNat_leadingOne (@UnpackedFloat.unpackMantissa .binary64 bits)
      rw [if_neg hones, if_neg hleast, if_neg hones, if_neg hleast, ← hone]
      rfl

/-! ### Roots -/

/-- A float that is neither an infinity nor what is no number is canonical, and its exponent is
within range. -/
lemma canonical_unpack {s : Sign} {h : 0 < m} (hx : x.toModel.unpack = .finite s m e h) :
    Canonical m e ∧ e ≤ 971 := by
  obtain ⟨⟨⟨bits⟩, hvalid⟩⟩ := x
  change UnpackedFloat.unpack .binary64 bits = _ at hx
  unfold UnpackedFloat.unpack at hx
  dsimp only at hx
  split at hx
  · split at hx <;> cases hx
  · rename_i hones
    have hlow : (@UnpackedFloat.unpackMantissa .binary64 bits).toNat < 2 ^ 52 := BitVec.isLt _
    split at hx
    · rename_i hzero
      split at hx
      · cases hx
      · obtain ⟨-, rfl, rfl⟩ := UnpackedFloat.finite.inj hx
        rw [hzero]
        exact ⟨⟨by omega, le_rfl, .inr rfl⟩, by decide⟩
    · rename_i hzero
      obtain ⟨-, rfl, rfl⟩ := UnpackedFloat.finite.inj hx
      have hone := toNat_leadingOne (@UnpackedFloat.unpackMantissa .binary64 bits)
      have hpos := mt (toNat_exponent_eq_zero bits).1 hzero
      have hroom := mt (toNat_exponent_eq_ones bits).1 hones
      have hlt : (@UnpackedFloat.unpackExponent .binary64 bits).toNat < 2 ^ 11 := BitVec.isLt _
      change Canonical (1#1 ++ @UnpackedFloat.unpackMantissa .binary64 bits).toNat
        ((@UnpackedFloat.unpackExponent .binary64 bits).toNat - 1075) ∧ _ - (1075 : ℤ) ≤ 971
      exact ⟨⟨by omega, by omega, .inl (by omega)⟩, by omega⟩

lemma atMost_sqrt {h : 0 < m} (hx : x.toModel.unpack = .finite .positive m e h) :
    AtMost 512 x.sqrt := by
  obtain ⟨hc, he⟩ := canonical_unpack hx
  obtain ⟨low, hlow⟩ : ∃ low : ℤ, low = min (e.ediv 2)
      (Format.binary64.targetExponent ((totalExponent m e + 1).ediv 2)) := ⟨_, rfl⟩
  have hhalf : low ≤ e / 2 := hlow ▸ min_le_left _ _
  obtain ⟨shift, hshift⟩ := Int.le.dest (show 2 * low ≤ e by omega)
  obtain ⟨t, ht⟩ := Int.le.dest (show low ≤ 512 by omega)
  have hroom : m * 2 ^ shift < 2 ^ t * 2 ^ t := by
    calc m * 2 ^ shift < 2 ^ 53 * 2 ^ shift := Nat.mul_lt_mul_of_pos_right hc.lt (by positivity)
      _ = 2 ^ (53 + shift) := by rw [pow_add]
      _ ≤ 2 ^ (t + t) := Nat.pow_le_pow_right two_pos (by omega)
      _ = 2 ^ t * 2 ^ t := by rw [pow_add]
  have hroot : (m * 2 ^ shift).sqrt < 2 ^ t := Nat.sqrt_lt.2 hroom
  have hcore : UnpackedFloat.sqrtCore .binary64 m e = ((m * 2 ^ shift).sqrt, low,
      (UnpackedFloat.sqrtCore .binary64 m e).2.2) := by
    have hcount : (e - 2 * low).toNat = shift := by omega
    unfold UnpackedFloat.sqrtCore
    rw [← hlow]
    simp only [hcount, Nat.shiftLeft_eq]
  have hdown : low ≤ Format.binary64.targetExponent (totalExponent (m * 2 ^ shift).sqrt low) := by
    have htarget : low ≤ max ((m.log2 + 1 + e + 1) / 2 - 53) (-1074) := hlow ▸ min_le_right _ _
    rw [targetExponent_eq, totalExponent]
    by_cases hleast : low ≤ -1074
    · omega
    · have hbits : 52 ≤ (m * 2 ^ shift).sqrt.log2 := by
        have hsize : 2 ^ 52 * 2 ^ 52 ≤ m * 2 ^ shift := by
          calc 2 ^ 52 * 2 ^ 52 = 2 ^ 104 := by norm_num
            _ ≤ 2 ^ (m.log2 + shift) := Nat.pow_le_pow_right two_pos (by omega)
            _ = 2 ^ m.log2 * 2 ^ shift := by rw [pow_add]
            _ ≤ m * 2 ^ shift := Nat.mul_le_mul_right _ (Nat.log2_self_le h.ne')
        have hle : 2 ^ 52 ≤ (m * 2 ^ shift).sqrt := Nat.le_sqrt.2 hsize
        exact (Nat.le_log2 (by omega)).2 hle
      omega
  have hceil (rest : Accuracy) :
      ceiling (.ofMantissaAndAccuracy (m * 2 ^ shift).sqrt rest) ≤ 2 ^ t := by
    refine (roundedMantissa_bounds _).2.2.trans ?_
    rcases rest with _ | _ | _ | _ <;> exact hroot
  have hround := atMost_round hdown (hceil (UnpackedFloat.sqrtCore .binary64 m e).2.2) (by omega)
    (by omega)
  rw [ht] at hround
  change AtMost 512 (.ofModel (.pack (UnpackedFloat.sqrt .binary64 x.toModel.unpack)))
  rw [hx, UnpackedFloat.sqrt, hcore]
  exact hround

end SoundAtlas.Number
