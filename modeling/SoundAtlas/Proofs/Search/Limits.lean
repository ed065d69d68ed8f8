import Mathlib
import SoundAtlas.Proofs.Search.Trace

/-!
The three ends of a search: enough has been found, the next cell is too far away, or there is none.
Searches that begin in the same cells take the same cells as long as none of them ends, so the one
that ends first has taken a first part of what the others take. Hence a filter and a count may as
well be applied to what is found without them, and a wider limit only adds results at the end.
-/

namespace SoundAtlas.Search

/-- A limit is no narrower than another; what is no number is no limit to compare. -/
def Widens : Option Float → Option Float → Prop
  | _, none => True
  | none, some _ => False
  | some limit, some wider => limit ≤ wider

/-- A query for all entities within a limit: every one is accepted. -/
def Query.within (ids : List Int) (count : Int) (limit : Option Float) : Query :=
  ⟨ids, count, fun _ => true, limit⟩

variable {n : Network} {g : Grid} {index : EntityIndex} {q r : Query}
  {distance : g.Cell → g.Cell → Float} {cells : List g.Cell} {ids : List Int} {all : Int}
  {limit wider : Option Float}

/-! ### The search that ends first -/

/-- **A search that ends no later than another takes a first part of the other's cells.** -/
lemma expandAll_prefix
    (hfull : ∀ cells : List g.Cell, r.maxCount ≤ (found index r cells).length →
      q.maxCount ≤ (found index q cells).length)
    (hbeyond : ∀ x, (r.maxDistance.any fun most => most < x) = true →
      (q.maxDistance.any fun most => most < x) = true) (cells : List g.Cell) :
    expandAll distance index q cells <+: expandAll distance index r cells := by
  induction cells using expandAll.induct distance index q with
  | case1 cells henough =>
    rw [expandAll_of_full henough]
    exact prefix_expandAll cells
  | case2 cells _ hnone => rw [expandAll_of_none hnone, expandAll_of_none hnone]
  | case3 cells hroom e he hb =>
    rw [expandAll_of_pick hroom he, if_pos hb]
    exact prefix_expandAll cells
  | case4 cells hroom e he hb ih =>
    rw [expandAll_of_pick hroom he, if_neg hb, expandAll_of_pick (mt (hfull cells) hroom) he,
      if_neg (mt (hbeyond e.distance) hb)]
    exact ih

/-- Of two searches with one limit, the first ends early only when it has enough. -/
lemma expandAll_eq_or_full (hlimit : q.maxDistance = r.maxDistance)
    (hroom : ∀ cells : List g.Cell, ¬ r.maxCount ≤ (found index r cells).length)
    (cells : List g.Cell) :
    expandAll distance index q cells = expandAll distance index r cells ∨
      q.maxCount ≤ (found index q (expandAll distance index q cells)).length := by
  induction cells using expandAll.induct distance index q with
  | case1 cells henough =>
    rw [expandAll_of_full henough]
    exact .inr henough
  | case2 cells _ hnone => exact .inl (by rw [expandAll_of_none hnone, expandAll_of_none hnone])
  | case3 cells hq e he hb =>
    rw [expandAll_of_pick hq he, if_pos hb, expandAll_of_pick (hroom cells) he, ← hlimit, if_pos hb]
    exact .inl rfl
  | case4 cells hq e he hb ih =>
    rw [expandAll_of_pick hq he, if_neg hb, expandAll_of_pick (hroom cells) he, ← hlimit, if_neg hb]
    exact ih

/-- **A count may be applied in the end**: to what is in the cells of a search that never has
enough. -/
lemma found_expandAll (hlimit : q.maxDistance = r.maxDistance)
    (hroom : ∀ cells : List g.Cell, ¬ r.maxCount ≤ (found index r cells).length)
    (cells : List g.Cell) :
    found index q (expandAll distance index q cells) =
      found index q (expandAll distance index r cells) := by
  have hcases : expandAll distance index q cells = expandAll distance index r cells ∨ _ :=
    expandAll_eq_or_full hlimit hroom cells
  obtain heq | hfull := hcases
  · rw [heq]
  · obtain ⟨rest, hrest⟩ : expandAll distance index q cells <+: expandAll distance index r cells :=
      expandAll_prefix (fun cells h => absurd h (hroom cells)) (by simp [hlimit]) cells
    rw [← hrest, found, found, List.flatMap_append, harvest_append_of_full hfull]

/-! ### What is eligible -/

lemma eligible_accept (m : Int) (accept : Int → Bool) (met : List Int) :
    eligible ⟨ids, m, accept, limit⟩ met =
      (eligible (.within ids all limit) met).filter accept := by
  unfold eligible Query.within
  rw [List.filter_filter]
  congr 1
  funext id
  simp [Bool.and_comm]

lemma eligible_mono {met met' : List Int} (h : met <+: met') :
    eligible q met <+: eligible q met' := by
  obtain ⟨rest, rfl⟩ := h
  obtain ⟨extra, he⟩ := eligible_prefix q met rest
  exact ⟨extra, he.symm⟩

/-! ### Queries for everything -/

def trace (n : Network) (index : EntityIndex) (ids : List Int) (all : Int) (limit : Option Float) :
    List n.Cell :=
  expandAll n.cellDistance index (.within ids all limit) (startCells n.grid index ids)

/-- **What any search finds** is read off the cells that a search for everything takes. -/
lemma greedy_eq (h : index.Faithful n.grid) (hall : (index.count : Int) ≤ all) (m : Int)
    (accept : Int → Bool) : greedy n index ⟨ids, m, accept, limit⟩ =
      harvest ⟨ids, m, accept, limit⟩
        ((trace n index ids all limit).flatMap (entitiesIn index)) := by
  unfold greedy trace
  by_cases hs : startCells n.grid index ids = []
  · rw [hs, expandAll_nil, expandAll_nil]
    rfl
  · have hroom := not_full (q := .within ids all limit) h hall hs
    exact found_expandAll (q := ⟨ids, m, accept, limit⟩) (r := .within ids all limit) rfl hroom _

lemma greedy_within (h : index.Faithful n.grid) (hall : (index.count : Int) ≤ all) :
    greedy n index (.within ids all limit) =
      eligible (.within ids all limit)
        ((trace n index ids all limit).flatMap (entitiesIn index)) := by
  unfold greedy trace
  by_cases hs : startCells n.grid index ids = []
  · have hnone : eligible (.within ids all limit) [] = [] := by simp [eligible]
    simp only [Query.within, hs, expandAll_nil] at hnone ⊢
    simp [found, harvest, hnone]
  · exact (harvest_of_not_full (not_full (q := .within ids all limit) h hall hs _)).1

/-- **A filter and a count may be applied in the end.** -/
lemma greedy_filter (h : index.Faithful n.grid) (hall : (index.count : Int) ≤ all) (m : Int)
    (accept : Int → Bool) : greedy n index ⟨ids, m, accept, limit⟩ =
      ((greedy n index (.within ids all limit)).filter accept).take m.toNat := by
  rw [greedy_eq h hall, greedy_within h hall, ← eligible_accept m accept]
  rfl

lemma Widens.beyond (h : Widens limit wider) {x : Float}
    (hx : (wider.any fun most => most < x) = true) : (limit.any fun most => most < x) = true := by
  obtain ⟨most, rfl, hmost⟩ := (Option.any_eq_true _ _).1 hx
  rcases limit with _ | least
  · exact h.elim
  · simpa using Number.float_lt_of_le_of_lt h (by simpa using hmost)

/-- **A wider limit adds cells at the end.** -/
lemma prefix_trace (h : index.Faithful n.grid) (ids : List Int) (all : Int) {all' : Int}
    (hall' : (index.count : Int) ≤ all') (hw : Widens limit wider) :
    trace n index ids all limit <+: trace n index ids all' wider := by
  unfold trace
  by_cases hs : startCells n.grid index ids = []
  · rw [hs, expandAll_nil]
    exact List.nil_prefix
  · refine expandAll_prefix (fun cells henough => ?_) (fun x hx => hw.beyond hx) _
    exact absurd henough (not_full (q := .within ids all' wider) h hall' hs cells)

/-- **A wider limit adds results at the end.** -/
lemma prefix_greedy (h : index.Faithful n.grid) (ids : List Int)
    (hall : (index.count : Int) ≤ all) {all' : Int} (hall' : (index.count : Int) ≤ all')
    (hw : Widens limit wider) :
    greedy n index (.within ids all limit) <+: greedy n index (.within ids all' wider) := by
  obtain ⟨rest, hrest⟩ := prefix_trace h ids all hall' hw
  rw [greedy_within h hall, greedy_within h hall', ← hrest, List.flatMap_append]
  exact eligible_mono (List.prefix_append _ _)

/-- **Counting, filtering and limiting commute with the search.** Let a search accept everything and
ask for no fewer entities than the index has. Any other search with its limit finds the first of the
results that are accepted, up to its count; a search for everything with a wider limit adds results
at the end; and so does, whatever is accepted, any search with a higher count and a wider limit. -/
theorem findSimilar_limits (n : Network) (index : EntityIndex) (ids : List Int) (all : Int)
    (limit : Option Float) (hn : n.state = .trained) (h : index.Faithful n.grid)
    (hall : (index.count : Int) ≤ all) :
    ∃ found, findSimilar n index ⟨ids, all, fun _ => true, limit⟩ = .ok found ∧
      (∀ m accept, findSimilar n index ⟨ids, m, accept, limit⟩ =
        .ok ((found.filter accept).take m.toNat)) ∧
      (∀ all' wider, (index.count : Int) ≤ all' → Widens limit wider →
        ∃ more, findSimilar n index ⟨ids, all', fun _ => true, wider⟩ = .ok (found ++ more)) ∧
      ∀ m m' accept wider, m ≤ m' → Widens limit wider →
        ∃ first more, findSimilar n index ⟨ids, m, accept, limit⟩ = .ok first ∧
          findSimilar n index ⟨ids, m', accept, wider⟩ = .ok (first ++ more) := by
  have hfind (q : Query) := findSimilar_greedy hn h.toOnGrid q
  refine ⟨greedy n index (.within ids all limit), hfind _, ?_, ?_, ?_⟩
  · intro m accept
    rw [hfind, greedy_filter h hall m accept]
  · intro all' wider hall' hw
    obtain ⟨more, hmore⟩ := prefix_greedy h ids hall hall' hw
    exact ⟨more, by rw [hmore]; exact hfind _⟩
  · intro m m' accept wider hm hw
    have hfilter := (prefix_greedy h ids hall hall hw).filter accept
    have hcount : m.toNat ≤ m'.toNat := by omega
    obtain ⟨more, hmore⟩ := (List.take_prefix_take_left hcount).trans (hfilter.take m'.toNat)
    refine ⟨_, more, hfind _, ?_⟩
    rw [hfind, greedy_filter h hall m, greedy_filter h hall m', hmore]

theorem findSimilar_limits_square :
    ∃ found, findSimilar square squareIndex ⟨[1], 4, fun _ => true, some 2.0⟩ = .ok found ∧
      findSimilar square squareIndex ⟨[1], 1, fun id => id ≠ 3, some 2.0⟩ =
        .ok ((found.filter fun id => id ≠ 3).take 1) ∧
      ∃ more, findSimilar square squareIndex ⟨[1], 5, fun _ => true, some 4.5⟩ =
        .ok (found ++ more) := by
  have hcount : (squareIndex.count : Int) ≤ 4 := by decide +kernel
  have hwide : Widens (some 2.0) (some 4.5) := by
    unfold Widens
    decide
  obtain ⟨found, hfound, hfirst, hmore, -⟩ := findSimilar_limits square squareIndex [1] 4 (some 2.0)
    trained_square faithful_squareIndex hcount
  exact ⟨found, hfound, hfirst 1 _, hmore 5 (some 4.5) (by omega) hwide⟩

end SoundAtlas.Search
