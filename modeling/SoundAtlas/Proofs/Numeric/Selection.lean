import Mathlib
import SoundAtlas.Numeric.Statistics
import SoundAtlas.Proofs.Number.Packing

/-!
What is picked out of floats. The leader of candidates is the first of those that stand lowest,
where what is no number stands below all numbers. The median of numbers is in the middle of their
order, of which there is only one if none of them has a minus sign.
-/

namespace SoundAtlas.Numeric

open Number (standing Unsigned)

/-! ### Leaders -/

lemma overtakes_iff {value lead : Float} :
    overtakes value lead = true ↔ standing value < standing lead := by
  unfold overtakes
  cases hlead : lead.isNaN with
  | true => simp [Number.standing_eq_bot.2 hlead]
  | false =>
    cases hvalue : value.isNaN with
    | true =>
      have hbot := Number.standing_eq_bot.2 hvalue
      simp [hbot, Number.bot_lt_standing hlead]
    | false => simp [Number.lt_iff_standing hvalue]

/-- **The leader is the first of those that stand lowest.** -/
lemma exists_leader {α : Type} (best : α × Float) (cs : List (α × Float)) :
    ∃ before after, best :: cs = before ++ leader best cs :: after ∧
      (∀ c ∈ best :: cs, standing (leader best cs).2 ≤ standing c.2) ∧
      ∀ c ∈ before, standing (leader best cs).2 < standing c.2 := by
  induction cs generalizing best with
  | nil => exact ⟨[], [], rfl, by simp [leader], nofun⟩
  | cons c cs ih =>
    rw [leader]
    by_cases hover : overtakes c.2 best.2 = true
    · rw [if_pos hover]
      rw [overtakes_iff] at hover
      obtain ⟨before, after, hsplit, hleast, hfirst⟩ := ih c
      have hbest : standing (leader c cs).2 < standing best.2 :=
        (hleast c List.mem_cons_self).trans_lt hover
      exact ⟨best :: before, after, by rw [hsplit, List.cons_append],
        List.forall_mem_cons.2 ⟨hbest.le, hleast⟩, List.forall_mem_cons.2 ⟨hbest, hfirst⟩⟩
    · rw [if_neg hover]
      rw [overtakes_iff, not_lt] at hover
      obtain ⟨before, after, hsplit, hleast, hfirst⟩ := ih best
      obtain ⟨hbest, hrest⟩ := List.forall_mem_cons.1 hleast
      have hall : ∀ d ∈ best :: c :: cs, standing (leader best cs).2 ≤ standing d.2 :=
        List.forall_mem_cons.2 ⟨hbest, List.forall_mem_cons.2 ⟨hbest.trans hover, hrest⟩⟩
      cases before with
      | nil =>
        obtain ⟨hlead, rfl⟩ := List.cons.inj hsplit
        exact ⟨[], c :: cs, by rw [List.nil_append, ← hlead], hall, nofun⟩
      | cons b before =>
        obtain ⟨rfl, hcs⟩ := List.cons.inj hsplit
        obtain ⟨hb, hbefore⟩ := List.forall_mem_cons.1 hfirst
        exact ⟨best :: c :: before, after, congrArg (best :: c :: ·) hcs, hall,
          List.forall_mem_cons.2 ⟨hb, List.forall_mem_cons.2 ⟨hb.trans_le hover, hbefore⟩⟩⟩

/-! ### Medians -/

/-- The middle of a list: the element in the middle, or the mean of the two that are there. -/
inductive Middle : List Float → Float → Prop where
  | one {before after : List Float} (m : Float) (h : before.length = after.length) :
      Middle (before ++ m :: after) m
  | two {before after : List Float} (a b : Float) (h : before.length = after.length) :
      Middle (before ++ a :: b :: after) ((a + b) / 2.0)

variable {xs : List Float}

lemma length_ascending (xs : List Float) : (ascending xs).length = xs.length :=
  List.length_mergeSort ..

lemma pairwise_ascending (hxs : ∀ x ∈ xs, x.isNaN = false) :
    (ascending xs).Pairwise (· ≤ ·) := by
  have hstanding : (ascending xs).map standing =
      (xs.map standing).mergeSort fun a b => decide (a ≤ b) := by
    refine List.map_mergeSort fun a ha b _ => ?_
    simp only [Number.le_iff_standing (hxs a ha)]
  have hsorted : ((ascending xs).map standing).Pairwise (· ≤ ·) := by
    rw [hstanding]
    exact List.pairwise_mergeSort' (· ≤ ·) _
  refine (List.pairwise_map.1 hsorted).imp_of_mem fun ha _ hle => ?_
  exact (Number.le_iff_standing (hxs _ ((List.mergeSort_perm xs _).mem_iff.1 ha))).2 hle

/-- **There is one order of numbers without a minus sign.** -/
lemma eq_ascending (hxs : ∀ x ∈ xs, x.isNaN = false) (hsign : ∀ x ∈ xs, Unsigned x.toModel.unpack)
    {l : List Float} (hl : l.Perm xs) (hsorted : l.Pairwise (· ≤ ·)) : l = ascending xs := by
  refine List.Perm.eq_of_pairwise (fun a b ha hb hab hba => ?_) hsorted (pairwise_ascending hxs)
    (hl.trans (List.mergeSort_perm xs _).symm)
  have ha := hl.mem_iff.1 ha
  have hb := (List.mergeSort_perm xs _).mem_iff.1 hb
  rw [Number.le_iff_standing (hxs a ha)] at hab
  rw [Number.le_iff_standing (hxs b hb)] at hba
  obtain ⟨r, hr⟩ := WithBot.ne_bot_iff_exists.1 (Number.bot_lt_standing (hxs a ha)).ne'
  exact (hsign a ha).eq_of_rank (hsign b hb) (Number.standing_eq_coe.1 hr.symm)
    (Number.standing_eq_coe.1 ((le_antisymm hba hab).trans hr.symm))

lemma isNaN_median (h : ∃ x ∈ xs, x.isNaN = true) : (median xs).isNaN = true := by
  have hany : xs.any Float.isNaN = true := List.any_eq_true.2 h
  rw [median, if_pos hany]
  rfl

section Middle

variable {l : List Float} {k : ℕ}

lemma middle_one (hk : l.length = 2 * k + 1) : ∃ m, l[k]? = some m ∧ Middle l m := by
  have hlt : k < l.length := by omega
  have hsplit : l.take k ++ l[k] :: l.drop (k + 1) = l := by
    rw [List.getElem_cons_drop, List.take_append_drop]
  refine ⟨l[k], List.getElem?_eq_getElem hlt, ?_⟩
  have hmiddle : Middle (l.take k ++ l[k] :: l.drop (k + 1)) l[k] := .one _ (by simp; omega)
  rwa [hsplit] at hmiddle

lemma middle_two (hk : l.length = 2 * k + 2) :
    ∃ a b, l[k]? = some a ∧ l[k + 1]? = some b ∧ Middle l ((a + b) / 2.0) := by
  have hlt : k + 1 < l.length := by omega
  have hsplit : l.take k ++ l[k] :: l[k + 1] :: l.drop (k + 2) = l := by
    rw [List.getElem_cons_drop, List.getElem_cons_drop, List.take_append_drop]
  refine ⟨l[k], l[k + 1], List.getElem?_eq_getElem _, List.getElem?_eq_getElem hlt, ?_⟩
  have hmiddle : Middle (l.take k ++ l[k] :: l[k + 1] :: l.drop (k + 2))
      ((l[k] + l[k + 1]) / 2.0) :=
    .two _ _ (by simp; omega)
  rwa [hsplit] at hmiddle

end Middle

lemma middle_median (hne : xs ≠ []) (hxs : ∀ x ∈ xs, x.isNaN = false) :
    Middle (ascending xs) (median xs) := by
  have hany : ¬ xs.any Float.isNaN = true := fun hany => by
    obtain ⟨x, hx, hnan⟩ := List.any_eq_true.1 hany
    exact Bool.false_ne_true ((hxs x hx).symm.trans hnan)
  have hlen : 0 < (ascending xs).length := by
    rw [length_ascending]
    exact List.length_pos_of_ne_nil hne
  rw [median, if_neg hany]
  dsimp only
  generalize ascending xs = l at hlen
  obtain ⟨k, hk | hk⟩ : ∃ k, l.length = 2 * k + 1 ∨ l.length = 2 * k + 2 :=
    ⟨(l.length - 1) / 2, by omega⟩
  · obtain ⟨m, hget, hmiddle⟩ := middle_one hk
    have hodd : l.length % 2 = 1 := by omega
    have hhalf : l.length / 2 = k := by omega
    simpa only [hodd, hhalf, hget] using hmiddle
  · obtain ⟨a, b, ha, hb, hmiddle⟩ := middle_two hk
    have heven : l.length % 2 = 0 := by omega
    have hhalf : l.length / 2 = k + 1 := by omega
    simpa only [heven, hhalf, Nat.add_sub_cancel, ha, hb] using hmiddle

end SoundAtlas.Numeric
