import Mathlib
import SoundAtlas.Proofs.Numeric.Nesting

/-!
Rows one below the other. They make an array if they are of one length, and it can be cut into the
same rows again. Lists of values make an array if the floats that are read from each of them are
such rows.
-/

namespace SoundAtlas.Tensor

variable {xss : List (List Float)} {items : List Json} {lists : List (List Json)} {s : List ℕ}
  {t : Tensor} {w : ℕ}

/-! ### Lists side by side -/

section

variable {α β γ : Type} {r : α → β → Prop} {p : β → γ → Prop}

/-- What holds along two lists one after the other holds along both. -/
lemma exists_forall₂_iff {as : List α} {cs : List γ} :
    (∃ bs, List.Forall₂ r as bs ∧ List.Forall₂ p bs cs) ↔
      List.Forall₂ (fun a c => ∃ b, r a b ∧ p b c) as cs := by
  constructor
  · rintro ⟨bs, h, hp⟩
    induction h generalizing cs with
    | nil =>
      cases hp
      exact .nil
    | cons hab _ ih =>
      cases hp with
      | cons hbc hp => exact .cons ⟨_, hab, hbc⟩ (ih hp)
  · intro h
    induction h with
    | nil => exact ⟨[], .nil, .nil⟩
    | cons hac _ ih =>
      obtain ⟨b, hab, hbc⟩ := hac
      obtain ⟨bs, h, hp⟩ := ih
      exact ⟨b :: bs, .cons hab h, .cons hbc hp⟩

lemma exists_forall₂_iff_forall {as : List α} :
    (∃ bs, List.Forall₂ r as bs) ↔ ∀ a ∈ as, ∃ b, r a b := by
  induction as with
  | nil => exact ⟨fun _ => nofun, fun _ => ⟨[], .nil⟩⟩
  | cons a as ih =>
    rw [List.forall_mem_cons, ← ih]
    constructor
    · rintro ⟨_, h⟩
      cases h with
      | cons hab h => exact ⟨⟨_, hab⟩, _, h⟩
    · rintro ⟨⟨b, hab⟩, bs, h⟩
      exact ⟨b :: bs, .cons hab h⟩

lemma exists_of_forall₂ {as : List α} {bs : List β} {i : ℕ} {a : α} (h : List.Forall₂ r as bs)
    (ha : as[i]? = some a) : ∃ b, bs[i]? = some b ∧ r a b := by
  obtain ⟨hi, rfl⟩ := List.getElem?_eq_some_iff.1 ha
  have hi' : i < bs.length := h.length_eq ▸ hi
  exact ⟨bs[i], List.getElem?_eq_getElem hi', h.get hi hi'⟩

lemma exists_forall₂_of_flatten {as : List (List α)} {bs : List β}
    (h : List.Forall₂ r as.flatten bs) :
    ∃ parts, List.Forall₂ (List.Forall₂ r) as parts ∧ parts.flatten = bs := by
  induction as generalizing bs with
  | nil =>
    cases h
    exact ⟨[], .nil, rfl⟩
  | cons a as ih =>
    rw [List.flatten_cons] at h
    have hfirst := List.forall₂_take a.length h
    have hrest := List.forall₂_drop a.length h
    rw [List.take_left] at hfirst
    rw [List.drop_left] at hrest
    obtain ⟨parts, hparts, hjoin⟩ := ih hrest
    refine ⟨bs.take a.length :: parts, .cons hfirst hparts, ?_⟩
    rw [List.flatten_cons, hjoin, List.take_append_drop]

end

/-! ### Rows of floats -/

/-- Rows of one length are cut again where they were joined. -/
lemma chunks_flatten (h : ∀ x ∈ xss, x.length = w) :
    chunks w xss.length xss.flatten = xss := by
  induction xss with
  | nil => rfl
  | cons x xs ih =>
    obtain ⟨hx, hxs⟩ := List.forall_mem_cons.1 h
    rw [List.length_cons, List.flatten_cons, chunks, List.take_left' hx, List.drop_left' hx, ih hxs]

lemma length_flatten_of_lengths (h : ∀ x ∈ xss, x.length = w) :
    xss.flatten.length = [xss.length, w].foldr (· * ·) 1 := by
  have hsum : xss.map List.length = List.replicate xss.length w :=
    List.map_eq_replicate_iff.2 h
  rw [List.length_flatten, hsum, List.sum_replicate]
  simp

/-- **Rows make an array** if they are of one length, and then its entries are theirs. -/
lemma ofRows_eq_ok (hne : xss ≠ []) : ofRows xss = .ok t ↔
    ∃ w, (∀ x ∈ xss, x.length = w) ∧ t.shape = [xss.length, w] ∧
      t.entries = xss.flatten := by
  obtain ⟨x, xs, rfl⟩ := List.exists_cons_of_ne_nil hne
  have hsame : (xs.all fun r => r.length == x.length) = true ↔
      ∀ r ∈ x :: xs, r.length = x.length := by
    rw [List.forall_mem_cons, List.all_eq_true]
    simp
  obtain ⟨shape, entries, hentries⟩ := t
  constructor
  · intro h
    rw [ofRows] at h
    split at h
    · rename_i hall
      have hlengths := hsame.1 hall
      rw [ofEntries, dif_pos (length_flatten_of_lengths hlengths)] at h
      cases h
      exact ⟨x.length, hlengths, rfl, rfl⟩
    · cases h
  · rintro ⟨w, hlengths, rfl, rfl⟩
    obtain rfl := hlengths x List.mem_cons_self
    rw [ofRows, if_pos (hsame.2 hlengths), ofEntries, dif_pos (length_flatten_of_lengths hlengths)]

lemma rows_of_ofRows (hne : xss ≠ []) (h : ofRows xss = .ok t) : t.rows = xss := by
  obtain ⟨w, hlengths, hshape, hentries⟩ := (ofRows_eq_ok hne).1 h
  rw [rows, hshape, hentries]
  exact chunks_flatten hlengths

/-! ### Lists of values -/

def Flat (items : List Json) : Prop :=
  ∀ v ∈ items, ∀ inner, v ≠ .arr inner

def Reads : List Json → List Float → Prop :=
  List.Forall₂ fun v x => floatOfJson v = .ok x

lemma Flat.hasShape_iff (h : Flat items) : HasShape s (.arr items) ↔ s = [items.length] := by
  cases items with
  | nil => exact hasShape_nil
  | cons v items =>
    obtain ⟨hv, hitems⟩ := List.forall_mem_cons.1 h
    rw [hasShape_cons]
    constructor
    · rintro ⟨u, rfl, hu, -⟩
      rw [(hasShape_single hv).1 hu]
      rfl
    · rintro rfl
      exact ⟨[], rfl, .single hv, fun w hw => .single (hitems w hw)⟩

lemma Flat.leaves_eq (h : Flat items) : leaves (.arr items) = items := by
  rw [leaves, leavesOf_eq, List.flatMap_congr fun v hv => leaves_single (h v hv)]
  exact List.flatMap_singleton' items

/-- **A list of values becomes the list of the floats** that are read from it. -/
lemma Flat.ofJson_eq_ok (h : Flat items) :
    ofJson (.arr items) = .ok t ↔ ∃ xs, Reads items xs ∧ t = ofList xs := by
  rw [Tensor.ofJson_eq_ok, h.hasShape_iff, h.leaves_eq]
  constructor
  · rintro ⟨hshape, -, hreads⟩
    refine ⟨t.entries, hreads, ?_⟩
    obtain ⟨shape, entries, hentries⟩ := t
    rw [ofList, Tensor.mk.injEq]
    exact ⟨hshape.trans (congrArg (fun n => [n]) hreads.length_eq), rfl⟩
  · rintro ⟨xs, hreads, rfl⟩
    exact ⟨congrArg (fun n => [n]) hreads.length_eq.symm, Nat.le_of_ble_eq_true rfl, hreads⟩

lemma hasShape_lists (hne : lists ≠ []) (hflat : ∀ items ∈ lists, Flat items) :
    HasShape s (.arr (lists.map .arr)) ↔
      ∃ w, (∀ items ∈ lists, items.length = w) ∧ s = [lists.length, w] := by
  obtain ⟨items, lists, rfl⟩ := List.exists_cons_of_ne_nil hne
  obtain ⟨hitems, hlists⟩ := List.forall_mem_cons.1 hflat
  rw [List.map_cons, hasShape_cons, List.length_map]
  simp only [hitems.hasShape_iff, List.forall_mem_map, List.forall_mem_cons]
  constructor
  · rintro ⟨_, rfl, rfl, hrest⟩
    refine ⟨items.length, ⟨rfl, fun others ho => ?_⟩, rfl⟩
    have hshape := (hlists others ho).hasShape_iff.1 (hrest others ho)
    exact (List.cons.inj hshape).1.symm
  · rintro ⟨_, ⟨rfl, hrest⟩, rfl⟩
    refine ⟨_, rfl, rfl, fun others ho => ?_⟩
    rw [(hlists others ho).hasShape_iff, hrest others ho]

lemma leaves_lists (hflat : ∀ items ∈ lists, Flat items) :
    leaves (.arr (lists.map .arr)) = lists.flatten := by
  rw [leaves, leavesOf_eq, List.flatMap_map,
    List.flatMap_congr fun items hitems => (hflat items hitems).leaves_eq, List.flatMap_id']

lemma lengths_iff {xss : List (List Float)} (h : List.Forall₂ Reads lists xss) :
    (∀ items ∈ lists, items.length = w) ↔ ∀ x ∈ xss, x.length = w := by
  induction h with
  | nil => simp
  | cons hreads _ ih => rw [List.forall_mem_cons, List.forall_mem_cons, ih, hreads.length_eq]

/-- **Lists of values become an array** if the floats that are read from them do. -/
lemma ofJson_lists (hne : lists ≠ []) (hflat : ∀ items ∈ lists, Flat items) :
    ofJson (.arr (lists.map .arr)) = .ok t ↔
      ∃ xss, List.Forall₂ Reads lists xss ∧ ofRows xss = .ok t := by
  have hne' {xss : List (List Float)} (h : List.Forall₂ Reads lists xss) : xss ≠ [] := by
    rintro rfl
    cases h
    exact hne rfl
  rw [Tensor.ofJson_eq_ok, hasShape_lists hne hflat, leaves_lists hflat]
  constructor
  · rintro ⟨⟨w, hlengths, hshape⟩, -, hreads⟩
    obtain ⟨xss, hread, hjoin⟩ := exists_forall₂_of_flatten hreads
    rw [hread.length_eq] at hshape
    exact ⟨xss, hread,
      (ofRows_eq_ok (hne' hread)).2 ⟨w, (lengths_iff hread).1 hlengths, hshape, hjoin.symm⟩⟩
  · rintro ⟨xss, hread, ht⟩
    obtain ⟨w, hlengths, hshape, hentries⟩ := (ofRows_eq_ok (hne' hread)).1 ht
    rw [hshape, hentries, hread.length_eq]
    exact ⟨⟨w, (lengths_iff hread).2 hlengths, rfl⟩, Nat.le_of_ble_eq_true rfl,
      List.rel_flatten hread⟩

end SoundAtlas.Tensor
