import Mathlib
import SoundAtlas.Numeric.Tensor
import SoundAtlas.Proofs.Chains

/-!
Rectangular nestings of lists. A nesting is rectangular if all lists of one depth have the same
length, and then its entries, row by row, are as many as the product of these lengths; the entry at
some indices stands at the place that the indices count up to. What becomes an array of finite
floats are the nestings of finite numbers that are rectangular and not too deep.
-/

namespace SoundAtlas.Tensor

variable {v : Json} {items : List Json} {s idx : List ℕ} {xs : List Float}

/-! ### Shapes -/

/-- A value is a rectangular nesting of lists of these lengths, the outermost first. What is no list
is a single entry, and below a list of no items there is no further length. -/
inductive HasShape : List ℕ → Json → Prop where
  | single {v : Json} (h : ∀ items, v ≠ .arr items) : HasShape [] v
  | empty : HasShape [0] (.arr [])
  | list {s : List ℕ} {items : List Json} (hne : items ≠ []) (h : ∀ v ∈ items, HasShape s v) :
      HasShape (items.length :: s) (.arr items)

lemma hasShape_cons : HasShape s (.arr (v :: items)) ↔
    ∃ t, s = (items.length + 1) :: t ∧ HasShape t v ∧ ∀ w ∈ items, HasShape t w := by
  constructor
  · intro h
    cases h with
    | single h => exact absurd rfl (h _)
    | list _ h =>
      obtain ⟨hv, hitems⟩ := List.forall_mem_cons.1 h
      exact ⟨_, rfl, hv, hitems⟩
  · rintro ⟨t, rfl, hv, hitems⟩
    exact .list (List.cons_ne_nil _ _) (List.forall_mem_cons.2 ⟨hv, hitems⟩)

lemma hasShape_nil : HasShape s (.arr []) ↔ s = [0] := by
  constructor
  · intro h
    cases h with
    | single h => exact absurd rfl (h _)
    | empty => rfl
    | list hne => exact absurd rfl hne
  · rintro rfl
    exact .empty

lemma hasShape_single (h : ∀ items, v ≠ .arr items) : HasShape s v ↔ s = [] := by
  constructor
  · intro hs
    cases hs with
    | single => rfl
    | empty => exact absurd rfl (h _)
    | list => exact absurd rfl (h _)
  · rintro rfl
    exact .single h

mutual

theorem shapeOf_eq_some : ∀ (v : Json) (s : List ℕ), shapeOf v = some s ↔ HasShape s v
  | .arr [], s => by
    rw [hasShape_nil, shapeOf, Option.some.injEq, eq_comm]
  | .arr (v :: items), s => by
    rw [hasShape_cons, shapeOf]
    cases hv : shapeOf v with
    | none =>
      refine iff_of_false (by simp) ?_
      rintro ⟨t, -, ht, -⟩
      simp [(shapeOf_eq_some v t).2 ht] at hv
    | some t =>
      have ht : HasShape t v := (shapeOf_eq_some v t).1 hv
      have hunique (u : List ℕ) (hu : HasShape u v) : u = t := by
        rw [← Option.some.injEq, ← (shapeOf_eq_some v u).2 hu, hv]
      dsimp only
      split
      · rename_i hall
        have hitems := (allHaveShape_eq_true t items).1 hall
        constructor
        · intro h
          exact ⟨t, (Option.some.inj h).symm, ht, hitems⟩
        · rintro ⟨u, rfl, hu, -⟩
          rw [hunique u hu]
      · rename_i hall
        refine iff_of_false (by simp) ?_
        rintro ⟨u, rfl, hu, hitems⟩
        obtain rfl := hunique u hu
        exact hall ((allHaveShape_eq_true u items).2 hitems)
  | .null, s | .bool _, s | .int _, s | .float _, s | .str _, s | .obj _, s => by
    rw [hasShape_single (by simp), shapeOf, Option.some.injEq, eq_comm]
    all_goals simp

theorem allHaveShape_eq_true : ∀ (s : List ℕ) (items : List Json),
    allHaveShape s items = true ↔ ∀ v ∈ items, HasShape s v
  | s, [] => by simp [allHaveShape]
  | s, v :: items => by
    rw [allHaveShape, Bool.and_eq_true, decide_eq_true_iff, shapeOf_eq_some v s,
      allHaveShape_eq_true s items, List.forall_mem_cons]

end

/-! ### Entries -/

lemma leavesOf_eq (items : List Json) : leavesOf items = items.flatMap leaves := by
  induction items with
  | nil => rfl
  | cons v items ih => rw [leavesOf, ih, List.flatMap_cons]

lemma leaves_single (h : ∀ items, v ≠ .arr items) : leaves v = [v] := by
  cases v with
  | arr items => exact absurd rfl (h items)
  | _ => rfl

/-- **There are as many entries** as the product of the lengths. -/
lemma length_leaves (h : HasShape s v) : (leaves v).length = s.prod := by
  induction h with
  | single h => rw [leaves_single h, List.length_singleton, List.prod_nil]
  | empty => rfl
  | @list s items _ _ ih =>
    have hlengths : items.map (fun v => (leaves v).length) = items.map fun _ => s.prod :=
      List.map_congr_left ih
    rw [leaves, leavesOf_eq, List.length_flatMap, hlengths, List.map_const', List.sum_replicate,
      smul_eq_mul, List.prod_cons]

def entryAt : List ℕ → Json → Option Json
  | [], v => some v
  | i :: idx, .arr items => items[i]?.bind (entryAt idx)
  | _ :: _, _ => none

/-- The place of some indices when the last of them runs fastest. -/
def place : List ℕ → List ℕ → ℕ
  | _ :: s, i :: idx => i * s.prod + place s idx
  | _, _ => 0

abbrev Within (s idx : List ℕ) : Prop :=
  List.Forall₂ (· < ·) idx s

lemma place_lt (h : Within s idx) : place s idx < s.prod := by
  induction h with
  | nil => exact Nat.one_pos
  | @cons i n idx s hi _ ih =>
    have hnext : (i + 1) * s.prod ≤ n * s.prod := Nat.mul_le_mul_right _ hi
    rw [place, List.prod_cons]
    rw [Nat.succ_mul] at hnext
    omega

lemma exists_place {k : ℕ} (h : k < s.prod) : ∃ idx, Within s idx ∧ place s idx = k := by
  induction s generalizing k with
  | nil =>
    obtain rfl : k = 0 := Nat.lt_one_iff.1 h
    exact ⟨[], .nil, rfl⟩
  | cons n s ih =>
    rw [List.prod_cons] at h
    have hpos : 0 < s.prod := Nat.pos_of_mul_pos_left (Nat.zero_lt_of_lt h)
    obtain ⟨idx, hidx, hplace⟩ := ih (Nat.mod_lt k hpos)
    refine ⟨k / s.prod :: idx, .cons ?_ hidx, ?_⟩
    · exact Nat.div_lt_of_lt_mul (by rwa [Nat.mul_comm])
    · rw [place, hplace, Nat.div_add_mod']

/-- In lists of one length, one after the other, a place is counted by lists and then within one. -/
lemma getElem?_flatMap {α β : Type} {l : List α} {f : α → List β} {m i j : ℕ}
    (h : ∀ a ∈ l, (f a).length = m) (hj : j < m) :
    (l.flatMap f)[i * m + j]? = l[i]?.bind fun a => (f a)[j]? := by
  induction l generalizing i with
  | nil => simp
  | cons a l ih =>
    obtain ⟨ha, hl⟩ := List.forall_mem_cons.1 h
    rw [List.flatMap_cons]
    cases i with
    | zero =>
      rw [Nat.zero_mul, Nat.zero_add, List.getElem?_append_left (by omega)]
      rfl
    | succ i =>
      have hright : (i + 1) * m + j - m = i * m + j := by
        rw [Nat.succ_mul]
        omega
      rw [List.getElem?_append_right (by rw [ha, Nat.succ_mul]; omega), ha, hright, ih hl]
      rfl

/-- **Entries stand row by row**: the last index runs fastest. -/
lemma getElem?_leaves (h : HasShape s v) (hidx : Within s idx) :
    ∃ w, entryAt idx v = some w ∧ (leaves v)[place s idx]? = some w := by
  induction h generalizing idx with
  | @single v h =>
    cases hidx
    exact ⟨v, rfl, by rw [leaves_single h]; rfl⟩
  | empty =>
    cases hidx with
    | cons hi _ => exact absurd hi (Nat.not_lt_zero _)
  | @list s items _ hitems ih =>
    cases hidx with
    | @cons i _ idx _ hi hidx =>
      obtain ⟨w, hentry, hplace⟩ := ih items[i] (List.getElem_mem hi) hidx
      refine ⟨w, ?_, ?_⟩
      · rw [entryAt, List.getElem?_eq_getElem hi]
        exact hentry
      · rw [leaves, leavesOf_eq, place,
          getElem?_flatMap (fun v hv => length_leaves (hitems v hv)) (place_lt hidx),
          List.getElem?_eq_getElem hi]
        exact hplace

/-! ### Numbers -/

/-- A value that stands for a float: a number, a truth value, or a text that writes a number. -/
inductive IsNumber : Json → Float → Prop where
  | bool (b : Bool) : IsNumber (.bool b) (if b then 1.0 else 0.0)
  | int {n : Int} {x : Float} (h : Number.floatOfInt? n = some x) : IsNumber (.int n) x
  | float (x : Float) : IsNumber (.float x) x
  | text {t : String} {x : Float} (h : Number.readReal? t = some x) : IsNumber (.str (.chars t)) x

/-- **What converts to a finite float** is a number. That null converts as well does no harm. -/
lemma isNumber_iff {x : Float} : floatOfJson v = .ok x ∧ x.isFinite = true ↔
    IsNumber v x ∧ x.isFinite = true := by
  refine and_congr_left fun hx => ⟨fun h => ?_, fun h => ?_⟩
  · unfold floatOfJson at h
    split at h
    · obtain rfl := Except.ok.inj h
      exact absurd hx (by decide)
    · obtain rfl := Except.ok.inj h
      exact .bool _
    · split at h
      · rename_i hn
        obtain rfl := Except.ok.inj h
        exact .int hn
      · cases h
    · obtain rfl := Except.ok.inj h
      exact .float _
    · split at h
      · rename_i ht
        obtain rfl := Except.ok.inj h
        exact .text ht
      · cases h
    · cases h
    · cases h
  · cases h with
    | bool => rfl
    | int h => rw [floatOfJson, h]
    | float => rfl
    | text h => rw [floatOfJson, h]

/-- A list is the row-major flattening of a value: a rectangular nesting, not too deep, of numbers
all of which are finite floats. -/
structure Flattens (v : Json) (s : List ℕ) (xs : List Float) : Prop where
  shape : HasShape s v
  depth : s.length ≤ maxRank
  length : xs.length = s.prod
  entry : ∀ idx, Within s idx → ∃ w x, entryAt idx v = some w ∧ IsNumber w x ∧
    x.isFinite = true ∧ xs[place s idx]? = some x

lemma flattens_iff (hs : HasShape s v) (hd : s.length ≤ maxRank) : Flattens v s xs ↔
    List.Forall₂ (fun w x => floatOfJson w = .ok x ∧ x.isFinite = true) (leaves v) xs := by
  simp only [isNumber_iff]
  constructor
  · intro h
    rw [List.forall₂_iff_get]
    refine ⟨(length_leaves hs).trans h.length.symm, fun k hk hk' => ?_⟩
    obtain ⟨idx, hidx, rfl⟩ := exists_place (length_leaves hs ▸ hk)
    obtain ⟨w, x, hw, hx, hfinite, hplace⟩ := h.entry idx hidx
    obtain ⟨w', hw', hleaf⟩ := getElem?_leaves hs hidx
    obtain rfl : w = w' := Option.some.inj (hw.symm.trans hw')
    rw [List.getElem?_eq_some_iff] at hleaf hplace
    obtain ⟨_, hleaf⟩ := hleaf
    obtain ⟨_, hplace⟩ := hplace
    rw [List.get_eq_getElem, List.get_eq_getElem, hleaf, hplace]
    exact ⟨hx, hfinite⟩
  · intro h
    refine ⟨hs, hd, h.length_eq.symm.trans (length_leaves hs), fun idx hidx => ?_⟩
    obtain ⟨w, hw, hleaf⟩ := getElem?_leaves hs hidx
    obtain ⟨hk, hleaf⟩ := List.getElem?_eq_some_iff.1 hleaf
    have hk' : place s idx < xs.length := h.length_eq ▸ hk
    have hnumber := List.Forall₂.get h hk hk'
    rw [List.get_eq_getElem, List.get_eq_getElem, hleaf] at hnumber
    exact ⟨w, _, hw, hnumber.1, hnumber.2, List.getElem?_eq_getElem hk'⟩

/-- **What becomes an array** is a rectangular nesting that is not too deep, and its entries are
what the entries of the nesting convert to. -/
lemma ofJson_eq_ok {t : Tensor} : ofJson v = .ok t ↔ HasShape t.shape v ∧ t.shape.length ≤ maxRank ∧
    List.Forall₂ (fun w x => floatOfJson w = .ok x) (leaves v) t.entries := by
  rw [← mapM_eq_ok_iff_forall₂, ofJson, ← shapeOf_eq_some]
  cases hs : shapeOf v with
  | none => simp
  | some s =>
    have hlength (xs : List Float) (h : (leaves v).mapM floatOfJson = .ok xs) :
        xs.length = s.foldr (· * ·) 1 := by
      rw [← List.prod_eq_foldr, ← length_leaves ((shapeOf_eq_some v s).1 hs)]
      exact (mapM_eq_ok_iff_forall₂.1 h).length_eq.symm
    dsimp only
    split
    · rename_i hdeep
      simp only [reduceCtorEq, Option.some.injEq, false_iff, not_and]
      rintro rfl hshallow
      omega
    · rename_i hshallow
      cases hxs : (leaves v).mapM floatOfJson with
      | error e => simp
      | ok xs =>
        obtain ⟨shape, entries, ht⟩ := t
        have hentries : ofEntries s xs = .ok ⟨s, xs, hlength xs hxs⟩ := dif_pos (hlength xs hxs)
        simp only [hentries, Except.ok.injEq, Tensor.mk.injEq, Option.some.injEq]
        constructor
        · rintro ⟨rfl, rfl⟩
          exact ⟨rfl, Nat.le_of_not_lt hshallow, rfl⟩
        · rintro ⟨rfl, -, rfl⟩
          exact ⟨rfl, rfl⟩

lemma forall₂_and_right {α β : Type} {r : α → β → Prop} {p : β → Prop} {as : List α} {bs : List β} :
    List.Forall₂ (fun a b => r a b ∧ p b) as bs ↔ List.Forall₂ r as bs ∧ ∀ b ∈ bs, p b := by
  constructor
  · intro h
    induction h with
    | nil => exact ⟨.nil, nofun⟩
    | cons hab _ ih => exact ⟨.cons hab.1 ih.1, List.forall_mem_cons.2 ⟨hab.2, ih.2⟩⟩
  · rintro ⟨h, hp⟩
    induction h with
    | nil => exact .nil
    | cons hab _ ih =>
      obtain ⟨hb, hbs⟩ := List.forall_mem_cons.1 hp
      exact .cons ⟨hab, hb⟩ (ih hbs)

/-- **What becomes an array of finite floats** is a rectangular nesting of finite numbers, and the
entries of the array are its flattening. -/
lemma ofJson_finite_iff : (∃ t, ofJson v = .ok t ∧ t.entries.all Float.isFinite = true ∧
    t.entries = xs) ↔ ∃ s, Flattens v s xs := by
  constructor
  · rintro ⟨t, ht, hfinite, rfl⟩
    obtain ⟨hs, hd, hentries⟩ := ofJson_eq_ok.1 ht
    exact ⟨t.shape, (flattens_iff hs hd).2
      (forall₂_and_right.2 ⟨hentries, List.all_eq_true.1 hfinite⟩)⟩
  · rintro ⟨s, h⟩
    obtain ⟨hentries, hfinite⟩ := forall₂_and_right.1 ((flattens_iff h.shape h.depth).1 h)
    have hlength : xs.length = s.foldr (· * ·) 1 := by rw [← List.prod_eq_foldr, h.length]
    exact ⟨⟨s, xs, hlength⟩, ofJson_eq_ok.2 ⟨h.shape, h.depth, hentries⟩,
      List.all_eq_true.2 hfinite, rfl⟩

end SoundAtlas.Tensor
