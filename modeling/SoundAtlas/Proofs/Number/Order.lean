import Mathlib

/-!
The order of floats. A float that is a number has a rank, in a linear order, and `<` and `==`
compare ranks; both zeros have one rank, and what is no number has none. All that a search needs to
know of distances follows from that. Where a float has to be picked among others, what is no number
comes before all ranks.
-/

namespace SoundAtlas.Number

open Float.Model
open Float.Model.UnpackedFloat (Sign)

/-- The kind of a number, from negative infinity to infinity, its exponent and its mantissa. -/
abbrev Rank := ℤ ×ₗ ℤ ×ₗ ℤ

def Rank.mk (kind exponent mantissa : ℤ) : Rank :=
  toLex (kind, toLex (exponent, mantissa))

lemma Rank.mk_lt {k e m k' e' m' : ℤ} :
    Rank.mk k e m < Rank.mk k' e' m' ↔ k < k' ∨ k = k' ∧ (e < e' ∨ e = e' ∧ m < m') := by
  simp [Rank.mk, Prod.Lex.toLex_lt_toLex]

lemma Rank.mk_inj {k e m k' e' m' : ℤ} :
    Rank.mk k e m = Rank.mk k' e' m' ↔ k = k' ∧ e = e' ∧ m = m' := by
  simp [Rank.mk]

def unpackedRank : UnpackedFloat → Option Rank
  | .notANumber => none
  | .infinity .negative => some (.mk (-2) 0 0)
  | .finite .negative m e _ => some (.mk (-1) (-e) (-m))
  | .zero _ => some (.mk 0 0 0)
  | .finite .positive m e _ => some (.mk 1 e m)
  | .infinity .positive => some (.mk 2 0 0)

lemma compare_sign_self (s : Sign) : compare s s = .eq := by
  cases s <;> rfl

lemma compare_negative_positive : compare Sign.negative Sign.positive = .lt := rfl

lemma compare_positive_negative : compare Sign.positive Sign.negative = .gt := rfl

lemma unpacked_lt_iff (a b : UnpackedFloat) :
    a.lt b = true ↔ ∃ r s, unpackedRank a = some r ∧ unpackedRank b = some s ∧ r < s := by
  rcases a with (_ | _) | _ | _ | ⟨_ | _, m, e, _⟩ <;>
    rcases b with (_ | _) | _ | _ | ⟨_ | _, m', e', _⟩ <;>
    simp [UnpackedFloat.lt, UnpackedFloat.compare, unpackedRank, Rank.mk_lt, compare_sign_self,
      compare_negative_positive, compare_positive_negative, Ordering.then_eq_lt,
      Ordering.then_eq_gt, Int.compare_eq_lt, Int.compare_eq_gt, Nat.compare_eq_lt,
      Nat.compare_eq_gt]

lemma unpacked_beq_iff (a b : UnpackedFloat) :
    a.beq b = true ↔ ∃ r, unpackedRank a = some r ∧ unpackedRank b = some r := by
  rcases a with (_ | _) | _ | _ | ⟨_ | _, m, e, _⟩ <;>
    rcases b with (_ | _) | _ | _ | ⟨_ | _, m', e', _⟩ <;>
    simp [UnpackedFloat.beq, UnpackedFloat.compare, unpackedRank, Rank.mk_inj, compare_sign_self,
      compare_negative_positive, compare_positive_negative, Ordering.then_eq_eq] <;>
    omega

lemma unpacked_le_iff (a b : UnpackedFloat) :
    a.le b = true ↔ ∃ r s, unpackedRank a = some r ∧ unpackedRank b = some s ∧ r ≤ s := by
  have hsplit : a.le b = true ↔ a.lt b = true ∨ a.beq b = true := by
    unfold UnpackedFloat.le UnpackedFloat.lt UnpackedFloat.beq
    rcases a.compare b with _ | _ | _ | _ <;> decide
  rw [hsplit, unpacked_lt_iff, unpacked_beq_iff]
  constructor
  · rintro (⟨r, s, hr, hs, hlt⟩ | ⟨r, hr, hs⟩)
    · exact ⟨r, s, hr, hs, hlt.le⟩
    · exact ⟨r, r, hr, hs, le_rfl⟩
  · rintro ⟨r, s, hr, hs, hle⟩
    rcases hle.lt_or_eq with hlt | rfl
    · exact Or.inl ⟨r, s, hr, hs, hlt⟩
    · exact Or.inr ⟨r, hr, hs⟩

def rank (x : Float) : Option Rank :=
  unpackedRank x.toModel.unpack

lemma lt_iff {x y : Float} : x < y ↔ ∃ r s, rank x = some r ∧ rank y = some s ∧ r < s := by
  refine Iff.trans ?_ (unpacked_lt_iff _ _)
  show decide (x.toModel < y.toModel) = true ↔ _
  rw [decide_eq_true_iff]
  rfl

lemma le_iff {x y : Float} : x ≤ y ↔ ∃ r s, rank x = some r ∧ rank y = some s ∧ r ≤ s := by
  refine Iff.trans ?_ (unpacked_le_iff _ _)
  show decide (x.toModel ≤ y.toModel) = true ↔ _
  rw [decide_eq_true_iff]
  rfl

lemma beq_iff {x y : Float} : (x == y) = true ↔ ∃ r, rank x = some r ∧ rank y = some r :=
  unpacked_beq_iff _ _

lemma float_lt_irrefl (x : Float) : ¬ x < x := fun h => by
  obtain ⟨r, s, hr, hs, hlt⟩ := lt_iff.1 h
  obtain rfl : r = s := Option.some.inj (hr.symm.trans hs)
  exact lt_irrefl _ hlt

lemma float_lt_trans {x y z : Float} (h : x < y) (h' : y < z) : x < z := by
  obtain ⟨r, s, hr, hs, hlt⟩ := lt_iff.1 h
  obtain ⟨s', t, hs', ht, hlt'⟩ := lt_iff.1 h'
  obtain rfl : s = s' := Option.some.inj (hs.symm.trans hs')
  exact lt_iff.2 ⟨r, t, hr, ht, lt_trans hlt hlt'⟩

lemma float_lt_of_le_of_lt {x y z : Float} (h : x ≤ y) (h' : y < z) : x < z := by
  obtain ⟨r, s, hr, hs, hle⟩ := le_iff.1 h
  obtain ⟨s', t, hs', ht, hlt⟩ := lt_iff.1 h'
  obtain rfl : s = s' := Option.some.inj (hs.symm.trans hs')
  exact lt_iff.2 ⟨r, t, hr, ht, lt_of_le_of_lt hle hlt⟩

lemma rank_of_lt {x y : Float} (h : x < y) : ∃ r, rank x = some r := by
  obtain ⟨r, -, hr, -⟩ := lt_iff.1 h
  exact ⟨r, hr⟩

lemma rank_eq {x y a b : Float} (hx : x < a) (hy : y < b) (h : ¬ x < y) (h' : ¬ y < x) :
    rank x = rank y := by
  obtain ⟨r, hr⟩ := rank_of_lt hx
  obtain ⟨s, hs⟩ := rank_of_lt hy
  have h1 : ¬ r < s := fun hlt => h (lt_iff.2 ⟨r, s, hr, hs, hlt⟩)
  have h2 : ¬ s < r := fun hlt => h' (lt_iff.2 ⟨s, r, hs, hr, hlt⟩)
  rw [hr, hs, le_antisymm (not_lt.1 h2) (not_lt.1 h1)]

lemma lt_congr_rank {x y : Float} (h : rank x = rank y) (z : Float) : z < x ↔ z < y := by
  rw [lt_iff, lt_iff, h]

/-! ### What is no number -/

/-- Where a float stands among all floats: what is no number stands lowest. -/
def standing (x : Float) : WithBot Rank :=
  rank x

variable {x y : Float}

lemma standing_eq_coe {r : Rank} : standing x = r ↔ rank x = some r := Iff.rfl

lemma standing_eq_bot : standing x = ⊥ ↔ x.isNaN = true := by
  change unpackedRank x.toModel.unpack = none ↔ x.toModel.unpack.isNaN = true
  rcases x.toModel.unpack with (_ | _) | _ | _ | ⟨_ | _, m, e, _⟩ <;>
    simp [unpackedRank, Float.Model.UnpackedFloat.isNaN]

lemma bot_lt_standing (hx : x.isNaN = false) : ⊥ < standing x :=
  bot_lt_iff_ne_bot.2 fun h => Bool.false_ne_true (hx.symm.trans (standing_eq_bot.1 h))

lemma lt_iff_standing (hx : x.isNaN = false) : x < y ↔ standing x < standing y := by
  rw [lt_iff]
  constructor
  · rintro ⟨r, s, hr, hs, hlt⟩
    rw [standing_eq_coe.2 hr, standing_eq_coe.2 hs]
    exact WithBot.coe_lt_coe.2 hlt
  · intro h
    obtain ⟨r, hr⟩ := WithBot.ne_bot_iff_exists.1 (bot_lt_standing hx).ne'
    obtain ⟨s, hs⟩ := WithBot.ne_bot_iff_exists.1 h.ne_bot
    rw [← hr, ← hs, WithBot.coe_lt_coe] at h
    exact ⟨r, s, standing_eq_coe.1 hr.symm, standing_eq_coe.1 hs.symm, h⟩

lemma le_iff_standing (hx : x.isNaN = false) : x ≤ y ↔ standing x ≤ standing y := by
  rw [le_iff]
  constructor
  · rintro ⟨r, s, hr, hs, hle⟩
    rw [standing_eq_coe.2 hr, standing_eq_coe.2 hs]
    exact WithBot.coe_le_coe.2 hle
  · intro h
    obtain ⟨r, hr⟩ := WithBot.ne_bot_iff_exists.1 (bot_lt_standing hx).ne'
    obtain ⟨s, hs⟩ := WithBot.ne_bot_iff_exists.1 ((bot_lt_standing hx).trans_le h).ne'
    rw [← hr, ← hs, WithBot.coe_le_coe] at h
    exact ⟨r, s, standing_eq_coe.1 hr.symm, standing_eq_coe.1 hs.symm, h⟩

end SoundAtlas.Number
