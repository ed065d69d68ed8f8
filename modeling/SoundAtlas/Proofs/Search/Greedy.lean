import Mathlib.Data.List.Basic
import Mathlib.Order.Lattice
import Mathlib.Tactic.Lemma
import SoundAtlas.Index.Search

/-!
The plain expansion that a search stands for. It keeps nothing but the cells searched so far: each
time it looks at all cells, takes the one closest to a searched cell beside it, and searches that.
What has been found can be read off the cells searched.
-/

namespace SoundAtlas.Search

/-- The first element of a list that no other one comes before. -/
def pick {α : Type} (before : α → α → Bool) : List α → Option α
  | [] => none
  | a :: as =>
    match pick before as with
    | none => some a
    | some m => if before m a then some m else some a

/-- A comparison compares keys; what has no key comes neither before nor after. -/
def Compares {α κ : Type} [LT κ] (before : α → α → Bool) (key : α → Option κ) : Prop :=
  ∀ a b, before a b = true ↔ ∃ k l, key a = some k ∧ key b = some l ∧ k < l

section Pick

variable {α κ : Type} {before : α → α → Bool} {key : α → Option κ} {l : List α} {m : α}

lemma pick_eq_none : pick before l = none ↔ l = [] := by
  cases l with
  | nil => simp [pick]
  | cons a as =>
    simp only [pick, reduceCtorEq, iff_false]
    split
    · simp
    · split <;> simp

lemma pick_mem (h : pick before l = some m) : m ∈ l := by
  induction l generalizing m with
  | nil => simp [pick] at h
  | cons a as ih =>
    rw [pick] at h
    split at h
    · simp_all
    · rename_i m' hm'
      have := ih hm'
      split at h <;> simp_all

lemma Compares.trans [Preorder κ] (hb : Compares before key) {a b c : α}
    (h : before a b = true) (h' : before b c = true) : before a c = true := by
  obtain ⟨k, l, hk, hl, hlt⟩ := (hb a b).1 h
  obtain ⟨l', m, hl', hm, hlt'⟩ := (hb b c).1 h'
  obtain rfl : l = l' := Option.some.inj (hl.symm.trans hl')
  exact (hb a c).2 ⟨k, m, hk, hm, lt_trans hlt hlt'⟩

lemma Compares.irrefl [Preorder κ] (hb : Compares before key) (a : α) : ¬ before a a = true := by
  intro h
  obtain ⟨k, l, hk, hl, hlt⟩ := (hb a a).1 h
  obtain rfl : k = l := Option.some.inj (hk.symm.trans hl)
  exact lt_irrefl _ hlt

lemma Compares.trans_not [LinearOrder κ] (hb : Compares before key) {a b c : α} {k : κ}
    (h : before a b = true) (h' : ¬ before c b = true) (hc : key c = some k) :
    before a c = true := by
  obtain ⟨ka, kb, hka, hkb, hlt⟩ := (hb a b).1 h
  have hle : kb ≤ k := not_lt.1 fun hlt' => h' ((hb c b).2 ⟨k, kb, hc, hkb, hlt'⟩)
  exact (hb a c).2 ⟨ka, k, hka, hc, lt_of_lt_of_le hlt hle⟩

lemma not_before_pick [LinearOrder κ] (hb : Compares before key)
    (hk : ∀ a ∈ l, ∃ k, key a = some k) (h : pick before l = some m) :
    ∀ b ∈ l, ¬ before b m = true := by
  induction l generalizing m with
  | nil => simp
  | cons a as ih =>
    rw [pick] at h
    split at h
    · rename_i hn
      rw [pick_eq_none] at hn
      subst hn
      cases h
      simpa using hb.irrefl a
    · rename_i x hx
      have hmin := ih (fun b hb => hk b (by simp [hb])) hx
      obtain ⟨k, hkx⟩ := hk x (by simp [pick_mem hx])
      intro b hbl hbm
      split at h
      · rename_i hxa
        obtain rfl : x = m := Option.some.inj h
        rcases List.mem_cons.1 hbl with rfl | hbas
        · exact hb.irrefl _ (hb.trans hxa hbm)
        · exact hmin b hbas hbm
      · rename_i hxa
        obtain rfl : a = m := Option.some.inj h
        rcases List.mem_cons.1 hbl with rfl | hbas
        · exact hb.irrefl _ hbm
        · exact hmin b hbas (hb.trans_not hbm hxa hkx)

lemma key_pick_le [LinearOrder κ] (hb : Compares before key)
    (hk : ∀ a ∈ l, ∃ k, key a = some k) (h : pick before l = some m) {a : α} (ha : a ∈ l) {k k' : κ}
    (hm : key m = some k) (hka : key a = some k') : k ≤ k' := by
  refine not_lt.1 fun hlt => ?_
  exact not_before_pick hb hk h a ha ((hb a m).2 ⟨k', k, hka, hm, hlt⟩)

end Pick

/-! ### What is found -/

/-- The entities among those met that count, in the order in which they were met first: not those
asked for, and only those accepted. -/
def eligible (q : Query) (met : List Int) : List Int :=
  met.eraseDups.filter fun id => !q.ids.contains id && q.accept id

/-- What is found among the entities met: no more than wanted. -/
def harvest (q : Query) (met : List Int) : List Int :=
  (eligible q met).take q.maxCount.toNat

section Expansion

variable {g : Grid} (distance : g.Cell → g.Cell → Float) (index : EntityIndex) (q : Query)

/-- The entities in a cell, in ascending order. -/
def entitiesIn (c : g.Cell) : List Int :=
  ((index.entitiesAt? (g.position c)).getD ∅).toList

def found (searched : List g.Cell) : List Int :=
  harvest q (searched.flatMap (entitiesIn index))

/-! ### Where the search goes -/

/-- The distances, below infinity, of a cell from the searched cells beside it. -/
def ways (searched : List g.Cell) (c : g.Cell) : List Float :=
  ((searched.filter fun s => decide (s ∈ g.cellsBeside c)).map fun s => distance s c).filter
    fun d => d < 1.0 / 0.0

/-- The cells that may come next, each with the least of its distances. -/
def candidates (searched : List g.Cell) : List (Entry g) :=
  g.cells.filterMap fun c =>
    if c ∈ searched then none
    else (pick (fun x y => decide (x < y)) (ways distance searched c)).map fun d => ⟨d, c⟩

/-- Whether one candidate comes before another: it is closer, or as close and in a higher row, or
in the same row and further to the left. -/
def nearer (a b : Entry g) : Bool :=
  let p := g.position a.cell
  let r := g.position b.cell
  a.distance < b.distance ||
    (a.distance == b.distance && (p.y < r.y || (p.y == r.y && p.x < r.x)))

def left (searched : List g.Cell) : Nat :=
  (g.cells.filter fun c => decide (c ∉ searched)).length

lemma mem_candidates {searched : List g.Cell} {e : Entry g} : e ∈ candidates distance searched ↔
    e.cell ∉ searched ∧
      pick (fun x y => decide (x < y)) (ways distance searched e.cell) = some e.distance := by
  simp only [candidates, List.mem_filterMap, Grid.cells, List.mem_finRange, true_and]
  constructor
  · rintro ⟨c, hc⟩
    split at hc
    · simp at hc
    · rename_i hcs
      obtain ⟨d, hd, rfl⟩ := Option.map_eq_some_iff.1 hc
      exact ⟨hcs, hd⟩
  · rintro ⟨hcs, hd⟩
    exact ⟨e.cell, by rw [if_neg hcs, hd]; rfl⟩

lemma left_lt {searched : List g.Cell} {c : g.Cell} (hc : c ∉ searched) :
    left (searched ++ [c]) < left searched := by
  have hsub : (g.cells.filter fun d => decide (d ∉ searched ++ [c])) =
      (g.cells.filter fun d => decide (d ∉ searched)).filter fun d => decide (d ≠ c) := by
    rw [List.filter_filter]
    congr 1
    funext d
    by_cases h1 : d ∈ searched <;> by_cases h2 : d = c <;> simp [h1, h2]
  unfold left
  rw [hsub]
  refine List.length_filter_lt_length_iff_exists.2 ⟨c, ?_, by simp⟩
  simp [Grid.cells, hc]

/-- The cells that are searched after the given ones: one at a time, until enough has been found, no
cell can come next, or the next one is too far away. -/
def expandAll (searched : List g.Cell) : List g.Cell :=
  if q.maxCount ≤ (found index q searched).length then searched
  else
    match _h : pick nearer (candidates distance searched) with
    | none => searched
    | some e =>
      if q.maxDistance.any fun limit => limit < e.distance then searched
      else expandAll (searched ++ [e.cell])
termination_by left searched
decreasing_by exact left_lt ((mem_candidates distance).1 (pick_mem _h)).1

variable {distance index q} {searched : List g.Cell}

lemma expandAll_of_full (h : q.maxCount ≤ (found index q searched).length) :
    expandAll distance index q searched = searched := by
  rw [expandAll, if_pos h]

lemma expandAll_of_none (h : pick nearer (candidates distance searched) = none) :
    expandAll distance index q searched = searched := by
  unfold expandAll
  split
  · rfl
  · split
    · rfl
    · rename_i e he
      rw [h] at he
      simp at he

lemma expandAll_of_pick (hf : ¬ q.maxCount ≤ (found index q searched).length) {e : Entry g}
    (h : pick nearer (candidates distance searched) = some e) :
    expandAll distance index q searched =
      if q.maxDistance.any fun limit => limit < e.distance then searched
      else expandAll distance index q (searched ++ [e.cell]) := by
  rw [expandAll, if_neg hf]
  split
  · rename_i hn
    rw [h] at hn
    simp at hn
  · rename_i m hm
    obtain rfl : e = m := Option.some.inj (h.symm.trans hm)
    rfl

end Expansion

def startCells (g : Grid) (index : EntityIndex) (ids : List Int) : List g.Cell :=
  g.cells.filter fun c => ids.any fun id => (index.positionsOf id).contains (g.position c)

/-- The entities that the plain expansion finds. -/
def greedy (n : Network) (index : EntityIndex) (q : Query) : List Int :=
  found index q (expandAll n.cellDistance index q (startCells n.grid index q.ids))

end SoundAtlas.Search
