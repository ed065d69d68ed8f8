import Mathlib
import SoundAtlas.Json.Parser
import SoundAtlas.Json.Printer

/-!
Numbers and texts of a document are read back as they were written, whatever comes after them, as
long as that does not go on with the number.
-/

namespace SoundAtlas.Json

/-! ### Whole numbers -/

def EndsNumber (cs : List Char) : Prop :=
  ∀ c ∈ cs.head?, c.isDigit = false ∧ c ≠ '.' ∧ c ≠ 'e' ∧ c ≠ 'E'

variable {cs : List Char} {n : ℕ}

lemma endsNumber_nil : EndsNumber [] := by simp [EndsNumber]

lemma digitRun_append {ds : List Char} (hd : ∀ c ∈ ds, c.isDigit = true) (h : EndsNumber cs) :
    digitRun (ds ++ cs) = (ds.map fun c => c.toNat - 48, cs) := by
  have hcs : cs.takeWhile Char.isDigit = [] ∧ cs.dropWhile Char.isDigit = cs := by
    cases cs with
    | nil => exact ⟨rfl, rfl⟩
    | cons c cs =>
      have hc := (h c rfl).1
      simp [hc]
  unfold digitRun
  rw [List.takeWhile_append_of_pos hd, List.dropWhile_append_of_pos hd, hcs.1, hcs.2,
    List.append_nil]

lemma ne_of_isDigit {c d : Char} (hc : c.isDigit = true) (hd : d.isDigit = false) : c ≠ d := by
  rintro rfl
  simp [hc] at hd

lemma exists_toDigits (n : ℕ) : ∃ c ds, Nat.toDigits 10 n = c :: ds ∧ c.isDigit = true := by
  cases hds : Nat.toDigits 10 n with
  | nil => exact absurd hds Nat.toDigits_ne_nil
  | cons c ds =>
    exact ⟨c, ds, rfl,
      Nat.isDigit_of_mem_toDigits (by decide) (le_refl 10) (hds ▸ List.mem_cons_self)⟩

lemma head_toDigits (hn : 0 < n) : ∃ c ds, Nat.toDigits 10 n = c :: ds ∧ c ≠ '0' := by
  induction n using Nat.strong_induction_on with
  | _ n ih =>
    rw [Nat.toDigits_eq_if (by decide)]
    split
    · rename_i hlt
      interval_cases n <;> exact ⟨_, _, rfl, by decide⟩
    · obtain ⟨c, ds, hds, hc⟩ := ih (n / 10) (by omega) (by omega)
      exact ⟨c, _, by rw [hds, List.cons_append], hc⟩

lemma wholePart_toDigits (n : ℕ) (h : EndsNumber cs) :
    wholePart (Nat.toDigits 10 n ++ cs) =
      some ((Nat.toDigits 10 n).map fun c => c.toNat - 48, cs) := by
  obtain rfl | hn := Nat.eq_zero_or_pos n
  · rw [Nat.toDigits_zero]
    rfl
  · obtain ⟨c, ds, hds, hc⟩ := head_toDigits hn
    have hdigits : ∀ c ∈ Nat.toDigits 10 n, c.isDigit = true := fun c hmem =>
      Nat.isDigit_of_mem_toDigits (by decide) (le_refl 10) hmem
    have hrun := digitRun_append hdigits h
    rw [hds, List.cons_append] at hrun ⊢
    unfold wholePart
    split
    · rename_i heq
      exact absurd (List.cons.inj heq).1 hc
    · rw [hrun]
      rfl

lemma ofDigits_toDigits (n : ℕ) :
    Number.ofDigits ((Nat.toDigits 10 n).map fun c => c.toNat - 48) = n := by
  calc Number.ofDigits ((Nat.toDigits 10 n).map fun c => c.toNat - 48)
      = Nat.ofDigitChars 10 (Nat.toDigits 10 n) 0 := by
        rw [Number.ofDigits, List.foldl_map]
        rfl
    _ = n := Nat.ofDigitChars_ten_toDigits

lemma fractionPart_eq_none (h : EndsNumber cs) : fractionPart cs = none := by
  unfold fractionPart
  split
  · exact absurd rfl (h '.' rfl).2.1
  · rfl

lemma exponentPart_eq_none (h : EndsNumber cs) : exponentPart cs = none := by
  unfold exponentPart
  split
  · rename_i c _
    obtain ⟨-, -, he, hE⟩ := h c rfl
    rw [if_neg (by simp [he, hE])]
  · rfl

/-- The characters of a whole number: digits, with a minus in front if it is negative. -/
lemma toList_toString (n : ℤ) : (toString n).toList =
    if n < 0 then '-' :: Nat.toDigits 10 n.natAbs else Nat.toDigits 10 n.natAbs := by
  cases n with
  | ofNat n =>
    rw [if_neg (by simp)]
    change (Nat.repr n).toList = _
    rw [Nat.repr_eq_ofList_toDigits, String.toList_ofList]
    rfl
  | negSucc n =>
    rw [if_pos (Int.negSucc_lt_zero n)]
    change ("-" ++ Nat.repr (n + 1)).toList = _
    rw [Nat.repr_eq_ofList_toDigits, String.toList_append, String.toList_ofList,
      String.toList_ofList]
    rfl

lemma toDigits_append_ne (n : ℕ) (cs r : List Char) : Nat.toDigits 10 n ++ cs ≠ '-' :: r := by
  obtain ⟨c, ds, hds, hc⟩ := exists_toDigits n
  rw [hds]
  intro heq
  exact ne_of_isDigit hc (by decide) (List.cons.inj heq).1

lemma withinLimit_iff {n : ℤ} :
    Number.withinLimit n = true ↔ (Nat.toDigits 10 n.natAbs).length ≤ Number.digitLimit := by
  rw [Number.withinLimit, decide_eq_true_eq, Nat.pow_eq,
    ← Nat.length_toDigits_le_iff (by decide) (by decide)]

/-- **A whole number is read back**, if it is within the limit. -/
lemma number_toString {n : ℤ} (hn : Number.withinLimit n = true) (h : EndsNumber cs) :
    number ((toString n).toList ++ cs) = .ok (.int n, cs) := by
  have hlen : ¬ Number.digitLimit <
      ((Nat.toDigits 10 n.natAbs).map fun c => c.toNat - 48).length := by
    rw [List.length_map]
    exact not_lt.2 (withinLimit_iff.1 hn)
  have hsign : Number.signed (decide (n < 0)) n.natAbs = n := by
    unfold Number.signed
    split <;> rename_i hneg <;> rw [decide_eq_true_eq] at hneg <;> omega
  rw [toList_toString]
  unfold number
  split
  rename_i negative r heq
  have hsigned : negative = decide (n < 0) ∧ r = Nat.toDigits 10 n.natAbs ++ cs := by
    split at heq <;> obtain ⟨rfl, rfl⟩ := Prod.mk.inj heq <;> rename_i hlist
    · split at hlist
      · rename_i hneg
        exact ⟨by simp [hneg], (List.cons.inj hlist).2.symm⟩
      · exact absurd hlist (toDigits_append_ne _ _ _)
    · split at hlist
      · exact absurd rfl (hlist _)
      · rename_i hneg
        exact ⟨by simp [hneg], by rw [if_neg hneg]⟩
  obtain ⟨rfl, rfl⟩ := hsigned
  rw [wholePart_toDigits _ h]
  dsimp only
  rw [fractionPart_eq_none h, exponentPart_eq_none h]
  dsimp only
  rw [if_neg hlen, ofDigits_toDigits, hsign]

/-! ### Texts -/

lemma hexValue?_digitChar : ∀ d < 16, hexValue? (Nat.digitChar d) = some d := by
  decide

lemma hexFour?_hexDigits (hn : n < 0x10000) : ∃ a b c d,
    SoundAtlas.Text.hexDigits 4 n = [a, b, c, d] ∧ hexFour? a b c d = some n := by
  refine ⟨_, _, _, _, rfl, ?_⟩
  have hlt : ∀ m, m % 16 < 16 := fun m => Nat.mod_lt m (by decide)
  simp only [hexFour?, hexValue?_digitChar _ (hlt _), Option.bind_eq_bind, Option.bind_some,
    Option.pure_def, Option.some.injEq, Nat.shiftRight_eq_div_pow]
  omega

lemma stringCodes_unitEscape (hn : n < 0x10000) (cs : List Char) :
    stringCodes (unitEscape n ++ cs) = (stringCodes cs).map fun r => (n :: r.1, r.2) := by
  obtain ⟨a, b, c, d, hds, hfour⟩ := hexFour?_hexDigits hn
  rw [unitEscape, hds]
  simp only [List.cons_append, List.nil_append, stringCodes, hfour]
  cases stringCodes cs <;> rfl

/-- The units of a code point: a surrogate pair for one that has more than sixteen bits. -/
def units (n : ℕ) : List ℕ :=
  if n < 0x10000 then [n] else [0xd800 + (n - 0x10000) / 0x400, 0xdc00 + (n - 0x10000) % 0x400]

lemma stringCodes_char {c : Char} (hq : c ≠ '"') (hb : c ≠ '\\') (hlow : 0x20 ≤ c.toNat)
    (cs : List Char) :
    stringCodes (c :: cs) = (stringCodes cs).map fun r => (c.toNat :: r.1, r.2) := by
  rw [stringCodes.eq_def]
  split <;> rename_i heq
  · cases heq
  · exact absurd (List.cons.inj heq).1 hq
  · exact absurd (List.cons.inj heq).1 hb
  · exact absurd (List.cons.inj heq).1 hb
  · obtain ⟨rfl, rfl⟩ := List.cons.inj heq
    rw [if_neg (by simp [hb, hlow])]
    cases stringCodes cs <;> rfl

lemma stringCodes_escape {c : Char} (hc : c ≠ 'u') (he : shortEscape? c = some n) (cs : List Char) :
    stringCodes ('\\' :: c :: cs) = (stringCodes cs).map fun r => (n :: r.1, r.2) := by
  rw [stringCodes.eq_def]
  split <;> rename_i heq
  · cases heq
  · cases heq
  · exact absurd (List.cons.inj (List.cons.inj heq).2).1 hc
  · obtain ⟨rfl, rfl⟩ := List.cons.inj (List.cons.inj heq).2
    rw [he]
    cases stringCodes cs <;> rfl
  · obtain ⟨rfl, rfl⟩ := List.cons.inj heq
    rename_i hno
    exact absurd rfl (hno c cs rfl)

lemma units_of_lt (hn : n < 0x10000) : units n = [n] := if_pos hn

/-- **A code point is read back** as its units. -/
lemma stringCodes_codeText (hn : n.isValidChar) (cs : List Char) :
    stringCodes (codeText n ++ cs) = (stringCodes cs).map fun r => (units n ++ r.1, r.2) := by
  have hshort {c : Char} (hc : c ≠ 'u') (hn : n < 0x10000) (he : shortEscape? c = some n) :
      stringCodes (['\\', c] ++ cs) = (stringCodes cs).map fun r => (units n ++ r.1, r.2) := by
    rw [units_of_lt hn]
    exact stringCodes_escape hc he cs
  unfold codeText
  -- the first seven have a short escape
  split_ifs with h1 h2 h3 h4 h5 h6 h7 h8 h9
  iterate 7
    · subst_vars
      exact hshort (by decide) (by decide) rfl
  · have hcode : (Char.ofNat n).toNat = n := by rw [Char.toNat_ofNat, if_pos hn]
    have hne {m : Char} (hm : n ≠ m.toNat) : Char.ofNat n ≠ m := by
      rintro rfl
      exact hm hcode.symm
    have hread := stringCodes_char (hne h1) (hne h2) (hcode.symm ▸ h8.1) cs
    rw [hcode] at hread
    rw [units_of_lt (by omega)]
    exact hread
  · rw [units_of_lt h9]
    exact stringCodes_unitEscape h9 cs
  · have hle : n < 0x110000 := by
      obtain h | h := hn <;> omega
    rw [units, if_neg h9, List.append_assoc, stringCodes_unitEscape (by omega),
      stringCodes_unitEscape (by omega)]
    cases stringCodes cs <;> rfl

lemma joinSurrogates_flatMap {codes : List ℕ} (h : ∀ n ∈ codes, n.isValidChar) :
    joinSurrogates (codes.flatMap units) = codes := by
  induction codes with
  | nil => rfl
  | cons n codes ih =>
    obtain ⟨hn, hcodes⟩ := List.forall_mem_cons.1 h
    have hrest := ih hcodes
    rw [List.flatMap_cons]
    by_cases hlt : n < 0x10000
    · rw [units_of_lt hlt, List.singleton_append]
      have hhigh : isHighSurrogate n = false := by
        simp only [isHighSurrogate, Bool.and_eq_false_iff, decide_eq_false_iff_not]
        obtain h | h := hn <;> omega
      cases hu : codes.flatMap units with
      | nil =>
        rw [hu] at hrest
        rw [← hrest]
        rfl
      | cons m us =>
        rw [joinSurrogates, hhigh, Bool.false_and, if_neg Bool.false_ne_true, ← hu, hrest]
    · have hle : n < 0x110000 := by
        obtain h | h := hn <;> omega
      have hpair : (isHighSurrogate (0xd800 + (n - 0x10000) / 0x400) &&
          isLowSurrogate (0xdc00 + (n - 0x10000) % 0x400)) = true := by
        simp only [isHighSurrogate, isLowSurrogate, Bool.and_eq_true, decide_eq_true_eq]
        omega
      have hsum : 0x10000 + (0xd800 + (n - 0x10000) / 0x400 - 0xd800) * 0x400 +
          (0xdc00 + (n - 0x10000) % 0x400 - 0xdc00) = n := by
        omega
      rw [units, if_neg hlt, List.cons_append, List.singleton_append, joinSurrogates, hpair,
        if_pos rfl, hrest, hsum]

lemma isValidChar_of_mem {s : String} (h : n ∈ s.toList.map Char.toNat) : n.isValidChar := by
  obtain ⟨c, -, rfl⟩ := List.mem_map.1 h
  exact c.valid

lemma ofCodes_codes (s : String) : Text.ofCodes (s.toList.map Char.toNat) = .chars s := by
  rw [Text.ofCodes, dif_pos fun n => isValidChar_of_mem, List.map_map]
  have hid : Char.ofNat ∘ Char.toNat = id := funext Char.ofNat_toNat
  rw [hid, List.map_id, String.ofList_toList]

lemma stringCodes_flatMap {codes : List ℕ} (h : ∀ n ∈ codes, n.isValidChar) (cs : List Char) :
    stringCodes (codes.flatMap codeText ++ '"' :: cs) = .ok (codes.flatMap units, cs) := by
  induction codes with
  | nil => rfl
  | cons n codes ih =>
    obtain ⟨hn, hcodes⟩ := List.forall_mem_cons.1 h
    rw [List.flatMap_cons, List.append_assoc, stringCodes_codeText hn, ih hcodes]
    rfl

lemma stringBody_text (s : String) (cs : List Char) :
    stringBody ((s.toList.map Char.toNat).flatMap codeText ++ '"' :: cs) = .ok (.chars s, cs) := by
  have hvalid : ∀ n ∈ s.toList.map Char.toNat, n.isValidChar := fun n => isValidChar_of_mem
  rw [stringBody, stringCodes_flatMap hvalid]
  change Except.ok (Text.ofCodes (joinSurrogates _), cs) = _
  rw [joinSurrogates_flatMap hvalid, ofCodes_codes]

end SoundAtlas.Json
