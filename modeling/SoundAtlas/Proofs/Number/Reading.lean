import SoundAtlas.Number.Reading
import SoundAtlas.Proofs.Json.Tokens

/-!
Whole numbers read from digits alone. Digits of every script write a number if all of them are
decimal and there are not too many; those that only count as digits, such as superscripts, write
none. A number as it is shown is read back.
-/

namespace SoundAtlas

namespace Text

variable {c : Char} {cs : List Char}

/-! ### Digits and blanks -/

lemma isSome_decimalValue? :
    (decimalValue? c).isSome = true ↔ ∃ z ∈ zeros, z ≤ c.toNat ∧ c.toNat < z + 10 := by
  simp [decimalValue?, List.find?_isSome]

lemma isBlank_of_isDigit (h : isDigit c = true) : isBlank c = false := by
  have hzeros : ∀ z ∈ zeros, ∀ b ∈ blankRanges, z + 9 < b.1 ∨ b.2 < z := by decide
  have hothers : ∀ r ∈ otherDigitRanges, ∀ b ∈ blankRanges, r.2 < b.1 ∨ b.2 < r.1 := by decide
  rw [isDigit, Bool.or_eq_true, isSome_decimalValue?, List.any_eq_true] at h
  rw [isBlank, List.any_eq_false]
  intro b hb
  rw [Bool.and_eq_true, decide_eq_true_eq, decide_eq_true_eq]
  rcases h with ⟨z, hz, hlow, hhigh⟩ | ⟨r, hr, hrange⟩
  · have := hzeros z hz b hb
    omega
  · rw [Bool.and_eq_true, decide_eq_true_eq, decide_eq_true_eq] at hrange
    have := hothers r hr b hb
    omega

lemma ne_of_isDigit {d : Char} (hc : isDigit c = true) (hd : isDigit d = false) : c ≠ d := by
  rintro rfl
  exact Bool.false_ne_true (hd.symm.trans hc)

lemma decimalValue?_of_isDigit (h : c.isDigit = true) : decimalValue? c = some (c.toNat - 48) := by
  have hrange : 48 ≤ c.toNat ∧ c.toNat ≤ 57 := Char.isDigit_iff_toNat.1 h
  rw [decimalValue?, zeros, List.find?_cons_of_pos, Option.map_some]
  rw [Bool.and_eq_true, decide_eq_true_eq, decide_eq_true_eq]
  omega

lemma trim_eq_self {p : Char → Bool} (h : ∀ c ∈ cs, p c = false) : trim p cs = cs := by
  have hdrop (l : List Char) (hl : ∀ c ∈ l, p c = false) : l.dropWhile p = l := by
    cases l with
    | nil => rfl
    | cons c l => exact List.dropWhile_cons_of_neg (by simp [hl c List.mem_cons_self])
  rw [trim, hdrop cs h, hdrop cs.reverse fun c hc => h c (List.mem_reverse.1 hc),
    List.reverse_reverse]

end Text

namespace Number

open Text

variable {cs : List Char} {s : String} {v : ℤ} {n : ℕ}

/-! ### Digits alone -/

lemma takeSign_digits (h : ∀ c ∈ cs, isDigit c = true) : takeSign cs = (false, cs) := by
  unfold takeSign
  split
  · exact absurd rfl (ne_of_isDigit (h _ List.mem_cons_self) (by decide))
  · exact absurd rfl (ne_of_isDigit (h _ List.mem_cons_self) (by decide))
  · rfl

lemma takeDigits_cons {c : Char} {r : List Char} (hc : c ≠ '_') : takeDigits (c :: r) =
    match decimalValue? c with
    | some d => (d :: (takeDigits r).1, (takeDigits r).2)
    | none => ([], c :: r) := by
  rw [takeDigits.eq_def]
  split
  · rename_i heq
    cases heq
  · rename_i heq
    exact absurd (List.cons.inj heq).1 hc
  · rename_i heq
    obtain ⟨rfl, rfl⟩ := List.cons.inj heq
    rfl

lemma takeDigits_digits (h : ∀ c ∈ cs, isDigit c = true) : takeDigits cs =
    ((cs.takeWhile fun c => (decimalValue? c).isSome).filterMap decimalValue?,
      cs.dropWhile fun c => (decimalValue? c).isSome) := by
  induction cs with
  | nil => rfl
  | cons c cs ih =>
    obtain ⟨hc, hcs⟩ := List.forall_mem_cons.1 h
    rw [takeDigits_cons (ne_of_isDigit hc (by decide)), ih hcs]
    cases hd : decimalValue? c with
    | none => simp [hd]
    | some d => simp [hd]

lemma takeRun_digits (h : ∀ c ∈ cs, isDigit c = true) : takeRun cs = takeDigits cs := by
  unfold takeRun
  split
  · exact absurd rfl (ne_of_isDigit (h _ List.mem_cons_self) (by decide))
  · rfl

/-- **Digits alone** write a number exactly if they are decimal and not too many. -/
lemma readWhole?_digits (hne : s ≠ "") (hs : ∀ c ∈ s.toList, isDigit c = true) :
    readWhole? s = if (∀ c ∈ s.toList, (decimalValue? c).isSome = true) ∧ s.length ≤ digitLimit then
      some (ofDigits (s.toList.filterMap decimalValue?) : ℤ) else none := by
  have hmargin : ∀ c ∈ s.toList, isMargin c = false := fun c hc => by
    rw [isMargin, isBlank_of_isDigit (hs c hc), Bool.false_and]
  rw [readWhole?, trim_eq_self hmargin, takeSign_digits hs]
  dsimp only
  rw [takeRun_digits hs, takeDigits_digits hs]
  by_cases hall : ∀ c ∈ s.toList, (decimalValue? c).isSome = true
  · have hlen : (s.toList.filterMap decimalValue?).length = s.length := by
      rw [List.filterMap_length_eq_length.2 hall, String.length_toList]
    have hsome : (s.toList.filterMap decimalValue?).isEmpty = false := by
      rw [← Bool.not_eq_true, List.isEmpty_iff_length_eq_zero, hlen, String.length_eq_zero_iff]
      exact hne
    rw [List.dropWhile_eq_nil_iff.2 hall, List.takeWhile_eq_self_iff.2 hall]
    dsimp only
    rw [hsome, Bool.false_or, hlen]
    by_cases hlong : digitLimit < s.length
    · rw [if_pos (decide_eq_true hlong), if_neg fun h => not_le.2 hlong h.2]
    · rw [if_neg (by simpa using hlong), if_neg Bool.false_ne_true, if_pos ⟨hall, not_lt.1 hlong⟩]
  · rw [if_neg fun h => hall h.1]
    split
    · rename_i heq
      exact absurd (List.dropWhile_eq_nil_iff.1 (congrArg Prod.snd heq)) hall
    · rfl

/-! ### Numbers as they are shown -/

lemma toList_toString_natCast (n : ℕ) : (toString (n : ℤ)).toList = Nat.toDigits 10 n := by
  rw [Json.toList_toString, if_neg (not_lt.2 (Int.natCast_nonneg n)), Int.natAbs_natCast]

lemma toString_natCast_ne (n : ℕ) : toString (n : ℤ) ≠ "" := fun h =>
  Nat.toDigits_ne_nil ((toList_toString_natCast n).symm.trans (congrArg String.toList h))

lemma decimalValue?_toDigits {c : Char} (n : ℕ) (hc : c ∈ Nat.toDigits 10 n) :
    decimalValue? c = some (c.toNat - 48) :=
  decimalValue?_of_isDigit (Nat.isDigit_of_mem_toDigits (by decide) (by decide) hc)

lemma isDigit_toString (n : ℕ) : ∀ c ∈ (toString (n : ℤ)).toList, isDigit c = true := by
  intro c hc
  rw [toList_toString_natCast] at hc
  rw [isDigit, decimalValue?_toDigits n hc, Option.isSome_some, Bool.true_or]

/-- **A number as it is shown** is read back, if it is within the limit. -/
lemma readWhole?_toString (n : ℕ) :
    readWhole? (toString (n : ℤ)) = if withinLimit n = true then some (n : ℤ) else none := by
  have hdecimal : ∀ c ∈ Nat.toDigits 10 n, (decimalValue? c).isSome = true := fun c hc => by
    rw [decimalValue?_toDigits n hc, Option.isSome_some]
  have hvalues : (Nat.toDigits 10 n).filterMap decimalValue? =
      (Nat.toDigits 10 n).map fun c => c.toNat - 48 := by
    rw [← List.filterMap_eq_map]
    exact List.filterMap_congr fun c hc => decimalValue?_toDigits n hc
  have hlimit : withinLimit (n : ℤ) = true ↔ (Nat.toDigits 10 n).length ≤ digitLimit :=
    Json.withinLimit_iff
  rw [readWhole?_digits (toString_natCast_ne n) (isDigit_toString n), ← String.length_toList,
    toList_toString_natCast, hvalues, Json.ofDigits_toDigits]
  exact if_congr ((and_iff_right hdecimal).trans hlimit.symm) rfl rfl

end Number

end SoundAtlas
