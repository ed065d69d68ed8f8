import Mathlib.Order.Fin.Basic
import SoundAtlas.Proofs.Grid.Adjacency
import SoundAtlas.Proofs.Number.Order
import SoundAtlas.Proofs.Search.Greedy

/-!
The frontier of a search, and what it knows of the cells that may come next. Whatever has been
searched, and whatever old entries the frontier still holds: for a cell that has not been searched,
the best distance is the least of its distances from the cells searched, and an entry with it waits.
-/

namespace SoundAtlas.Search

variable {g : Grid}

/-! ### The order of entries -/

def Entry.key (e : Entry g) : Option (Number.Rank ×ₗ g.Cell) :=
  (Number.rank e.distance).map fun r => toLex (r, e.cell)

lemma key_eq_some {e : Entry g} {k : Number.Rank ×ₗ g.Cell} :
    e.key = some k ↔ Number.rank e.distance = some (ofLex k).1 ∧ e.cell = (ofLex k).2 := by
  simp only [Entry.key, Option.map_eq_some_iff]
  constructor
  · rintro ⟨r, hr, rfl⟩
    exact ⟨hr, rfl⟩
  · rintro ⟨hr, hc⟩
    exact ⟨_, hr, by rw [hc]; rfl⟩

lemma compares_before : Compares (Entry.before (g := g)) Entry.key := by
  intro a b
  simp only [Entry.before, Bool.or_eq_true, Bool.and_eq_true, decide_eq_true_eq, Number.lt_iff,
    Number.beq_iff, key_eq_some]
  constructor
  · rintro (⟨r, s, hr, hs, hlt⟩ | ⟨⟨r, hr, hs⟩, hlt⟩)
    · exact ⟨toLex (r, a.cell), toLex (s, b.cell), ⟨hr, rfl⟩, ⟨hs, rfl⟩,
        Prod.Lex.toLex_lt_toLex.2 (Or.inl hlt)⟩
    · exact ⟨toLex (r, a.cell), toLex (r, b.cell), ⟨hr, rfl⟩, ⟨hs, rfl⟩,
        Prod.Lex.toLex_lt_toLex.2 (Or.inr ⟨rfl, hlt⟩)⟩
  · rintro ⟨k, l, ⟨hk, hkc⟩, ⟨hl, hlc⟩, hlt⟩
    rcases Prod.Lex.lt_iff.1 hlt with h | ⟨h, hc⟩
    · exact Or.inl ⟨_, _, hk, hl, h⟩
    · exact Or.inr ⟨⟨_, hk, h ▸ hl⟩, by rw [hkc, hlc]; exact hc⟩

lemma compares_lt : Compares (fun x y : Float => decide (x < y)) Number.rank := by
  intro x y
  rw [decide_eq_true_eq, Number.lt_iff]

/-- By rows and columns candidates stand in the same order as by the numbers of their cells. -/
lemma nearer_eq_before (a b : Entry g) : nearer a b = a.before b := by
  have h : (decide ((g.position a.cell).y < (g.position b.cell).y) ||
      ((g.position a.cell).y == (g.position b.cell).y &&
        decide ((g.position a.cell).x < (g.position b.cell).x))) = decide (a.cell < b.cell) := by
    rw [Bool.eq_iff_iff]
    simp [Grid.lt_iff_position]
  simp only [nearer, Entry.before, h]

lemma compares_nearer : Compares (nearer (g := g)) Entry.key := fun a b => by
  rw [nearer_eq_before]
  exact compares_before a b

def Sorted (f : Frontier g) : Prop :=
  f.Pairwise fun a b => ¬ b.before a = true

lemma mem_push {e x : Entry g} {f : Frontier g} : x ∈ f.push e ↔ x = e ∨ x ∈ f := by
  induction f with
  | nil => simp [Frontier.push]
  | cons y ys ih =>
    simp only [Frontier.push]
    split
    · simp
    · simp only [List.mem_cons, ih]
      tauto

lemma sorted_push {e : Entry g} {f : Frontier g} (h : Sorted f) : Sorted (f.push e) := by
  induction f with
  | nil => simp [Frontier.push, Sorted]
  | cons y ys ih =>
    obtain ⟨hy, hys⟩ := List.pairwise_cons.1 h
    simp only [Frontier.push]
    split
    · rename_i hey
      refine List.pairwise_cons.2 ⟨fun x hx hxe => ?_, h⟩
      rcases List.mem_cons.1 hx with rfl | hx
      · exact compares_before.irrefl _ (compares_before.trans hxe hey)
      · exact hy x hx (compares_before.trans hxe hey)
    · rename_i hey
      refine List.pairwise_cons.2 ⟨fun x hx => ?_, ih hys⟩
      rcases mem_push.1 hx with rfl | hx
      · exact hey
      · exact hy x hx

lemma Sorted.key_head_le {e y : Entry g} {rest : Frontier g} (h : Sorted (e :: rest))
    (hy : y ∈ e :: rest) {k k' : Number.Rank ×ₗ g.Cell} (he : e.key = some k)
    (hky : y.key = some k') : k ≤ k' := by
  refine not_lt.1 fun hlt => ?_
  have hbefore : y.before e = true := (compares_before _ _).2 ⟨_, _, hky, he, hlt⟩
  rcases List.mem_cons.1 hy with rfl | hy
  · exact compares_before.irrefl _ hbefore
  · exact (List.pairwise_cons.1 h).1 y hy hbefore

/-! ### What has been offered -/

/-- What a search knows of the cells that have not been searched, if `way c x` says that `c` lies at
distance `x` from a searched cell beside it. -/
structure Offered (way : g.Cell → Float → Prop) (s : State g) : Prop where
  sorted : Sorted s.frontier
  /-- A distance that counts is below infinity. -/
  finite : ∀ c x, c ∉ s.searched → way c x → x < 1.0 / 0.0
  /-- No distance is less than the best one. -/
  least : ∀ c x, c ∉ s.searched → way c x → ∃ b, s.best[c]? = some b ∧ ¬ x < b
  /-- The best distance is a distance, and waits in the frontier. -/
  waiting : ∀ c b, c ∉ s.searched → s.best[c]? = some b → way c b ∧ ⟨b, c⟩ ∈ s.frontier
  /-- No entry of a cell has less than its best distance. -/
  entries : ∀ e ∈ s.frontier, e.cell ∉ s.searched →
    e.distance < 1.0 / 0.0 ∧ ∃ b, s.best[e.cell]? = some b ∧ ¬ e.distance < b

variable {way way' : g.Cell → Float → Prop} {s t : State g}

lemma offered_start (ids : List Int) : Offered (fun _ _ => False) (State.start g ids) where
  sorted := List.Pairwise.nil
  finite := by simp
  least := by simp
  waiting := by simp [State.start]
  entries := by simp [State.start]

lemma Offered.congr (h : Offered way s)
    (hw : ∀ c x, c ∉ s.searched → (way c x ↔ way' c x)) : Offered way' s where
  sorted := h.sorted
  finite c x hc hx := h.finite c x hc ((hw c x hc).2 hx)
  least c x hc hx := h.least c x hc ((hw c x hc).2 hx)
  waiting c b hc hb := ⟨(hw c b hc).1 (h.waiting c b hc hb).1, (h.waiting c b hc hb).2⟩
  entries := h.entries

lemma Offered.searched_mono (h : Offered way s) (hf : t.frontier = s.frontier)
    (hb : t.best = s.best) (hs : ∀ c, c ∉ t.searched → c ∉ s.searched) : Offered way t where
  sorted := hf ▸ h.sorted
  finite c x hc := h.finite c x (hs c hc)
  least c x hc := hb ▸ h.least c x (hs c hc)
  waiting c b hc := hb ▸ hf ▸ h.waiting c b (hs c hc)
  entries e he hc := hb ▸ h.entries e (hf ▸ he) (hs _ hc)

lemma Offered.of_not_lt (h : Offered way s) {c : g.Cell} {x : Float}
    (hlt : ¬ x < s.best.getD c (1.0 / 0.0)) :
    Offered (fun d y => way d y ∨ d = c ∧ y = x ∧ y < 1.0 / 0.0) s where
  sorted := h.sorted
  finite := by
    rintro d y hd (hy | ⟨-, -, hy⟩)
    · exact h.finite d y hd hy
    · exact hy
  least := by
    rintro d y hd (hy | ⟨rfl, rfl, hy⟩)
    · exact h.least d y hd hy
    · rw [Std.ExtTreeMap.getD_eq_getD_getElem?] at hlt
      rcases hb : s.best[d]? with _ | b
      · rw [hb] at hlt
        exact absurd hy hlt
      · rw [hb] at hlt
        exact ⟨b, rfl, hlt⟩
  waiting d b hd hb := ⟨Or.inl (h.waiting d b hd hb).1, (h.waiting d b hd hb).2⟩
  entries := h.entries

lemma lt_best {c : g.Cell} {x b : Float} (hlt : x < s.best.getD c (1.0 / 0.0))
    (hb : s.best[c]? = some b) : x < b := by
  rwa [Std.ExtTreeMap.getD_eq_getD_getElem?, hb] at hlt

lemma Offered.lt_infinity (h : Offered way s) {c : g.Cell} (hc : c ∉ s.searched) {x : Float}
    (hlt : x < s.best.getD c (1.0 / 0.0)) : x < 1.0 / 0.0 := by
  rcases hb : s.best[c]? with _ | b
  · rwa [Std.ExtTreeMap.getD_eq_getD_getElem?, hb] at hlt
  · have hfin : b < 1.0 / 0.0 := h.finite c b hc (h.waiting c b hc hb).1
    exact Number.float_lt_trans (lt_best hlt hb) hfin

lemma getElem?_insert_of_ne {best : Std.ExtTreeMap g.Cell Float} {c d : g.Cell} {x : Float}
    (hdc : d ≠ c) : (best.insert c x)[d]? = best[d]? := by
  simp [Std.ExtTreeMap.getElem?_insert, Ne.symm hdc]

lemma Offered.of_lt (h : Offered way s) {c : g.Cell} (hc : c ∉ s.searched) {x : Float}
    (hlt : x < s.best.getD c (1.0 / 0.0)) :
    Offered (fun d y => way d y ∨ d = c ∧ y = x ∧ y < 1.0 / 0.0)
      { s with best := s.best.insert c x, frontier := s.frontier.push ⟨x, c⟩ } where
  sorted := sorted_push h.sorted
  finite := by
    rintro d y hd (hy | ⟨-, -, hy⟩)
    · exact h.finite d y hd hy
    · exact hy
  least := by
    intro d y hd hy
    by_cases hdc : d = c
    · subst hdc
      refine ⟨x, by simp, fun hyx => ?_⟩
      rcases hy with hy | ⟨-, rfl, -⟩
      · obtain ⟨b, hb, hyb⟩ := h.least d y hd hy
        exact hyb (Number.float_lt_trans hyx (lt_best hlt hb))
      · exact Number.float_lt_irrefl _ hyx
    · obtain ⟨b, hb, hyb⟩ := h.least d y hd (hy.resolve_right fun hn => hdc hn.1)
      exact ⟨b, by rw [getElem?_insert_of_ne hdc, hb], hyb⟩
  waiting := by
    intro d b hd hb
    by_cases hdc : d = c
    · subst hdc
      obtain rfl : x = b := by simpa using hb
      exact ⟨Or.inr ⟨rfl, rfl, h.lt_infinity hd hlt⟩, mem_push.2 (Or.inl rfl)⟩
    · rw [getElem?_insert_of_ne hdc] at hb
      obtain ⟨hway, hmem⟩ := h.waiting d b hd hb
      exact ⟨Or.inl hway, mem_push.2 (Or.inr hmem)⟩
  entries := by
    intro e he hec
    rcases mem_push.1 he with rfl | he
    · exact ⟨h.lt_infinity hc hlt, x, by simp, Number.float_lt_irrefl _⟩
    obtain ⟨hfin, b, hb, heb⟩ := h.entries e he hec
    by_cases hdc : e.cell = c
    · rw [hdc] at hb
      refine ⟨hfin, x, by simp [hdc], fun hex => ?_⟩
      exact heb (Number.float_lt_trans hex (lt_best hlt hb))
    · exact ⟨hfin, b, by rw [getElem?_insert_of_ne hdc, hb], heb⟩

/-- **One offer.** The best distance of the cell is the less of the old one and the new. -/
lemma Offered.offer (h : Offered way s) {c : g.Cell} (hc : c ∉ s.searched) (x : Float) :
    Offered (fun d y => way d y ∨ d = c ∧ y = x ∧ y < 1.0 / 0.0) (s.offer c x) := by
  unfold State.offer
  split
  · rename_i hlt
    exact h.of_lt hc hlt
  · rename_i hlt
    exact h.of_not_lt hlt

/-- **The cells beside a searched cell.** Each of them can now be reached from it. -/
lemma Offered.extend (h : Offered way s) (distance : g.Cell → g.Cell → Float) (c : g.Cell) :
    Offered (fun d y => way d y ∨ d ∈ g.cellsBeside c ∧ y = distance c d ∧ y < 1.0 / 0.0)
      (s.extend distance c) := by
  suffices key : ∀ ds : List g.Cell, ∀ {way : g.Cell → Float → Prop} {s : State g},
      Offered way s → ∀ t, t = ds.foldl
        (fun s d => if s.searched.contains d then s else s.offer d (distance c d)) s →
      t.searched = s.searched ∧
        Offered (fun d y => way d y ∨ d ∈ ds ∧ y = distance c d ∧ y < 1.0 / 0.0) t from
    (key _ h _ rfl).2
  intro ds
  induction ds with
  | nil =>
    rintro way s h t rfl
    exact ⟨rfl, by simpa using h⟩
  | cons d ds ih =>
    rintro way s h t rfl
    rw [List.foldl_cons]
    split
    · rename_i hd
      obtain ⟨hs, ho⟩ := ih h _ rfl
      refine ⟨hs, ho.congr fun a y ha => ?_⟩
      have hne : a ≠ d := by
        rintro rfl
        exact ha (hs ▸ hd)
      simp [hne]
    · rename_i hd
      obtain ⟨hs, ho⟩ := ih (h.offer (by simpa using hd) (distance c d)) _ rfl
      refine ⟨hs.trans (State.searched_offer ..), ho.congr fun a y _ => ?_⟩
      by_cases had : a = d
      · subst had
        simp
        tauto
      · simp [had]

end SoundAtlas.Search
