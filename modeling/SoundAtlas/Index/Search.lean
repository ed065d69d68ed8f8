import SoundAtlas.Index.EntityIndex
import SoundAtlas.Network.Distance

/-!
The search for similar entities. It begins in the cells of the entities asked for, and goes on one
cell at a time: next comes the cell whose reference vector is closest to that of a searched cell
beside it. The cells that may come next wait in the frontier, in the order in which they would be
taken; a cell that has been offered again at a shorter distance leaves its old entry behind, which
is skipped later.
-/

namespace SoundAtlas.Search

structure Query where
  /-- The entities that others should be similar to. -/
  ids : List Int
  maxCount : Int
  accept : Int → Bool
  /-- No cell farther than this is searched. -/
  maxDistance : Option Float

inductive Error where
  /-- A position has no cell in the index. -/
  | noCell
  | network (e : Network.Error)
deriving DecidableEq, Repr

/-! ### The frontier -/

/-- A cell that may come next, with its distance from a searched cell. -/
structure Entry (g : Grid) where
  distance : Float
  cell : g.Cell

/-- Whether an entry is taken before another: the closer one, of equals the one in the earlier
cell. -/
def Entry.before {g : Grid} (a b : Entry g) : Bool :=
  a.distance < b.distance || (a.distance == b.distance && decide (a.cell < b.cell))

abbrev Frontier (g : Grid) := List (Entry g)

def Frontier.push {g : Grid} (e : Entry g) : Frontier g → Frontier g
  | [] => [e]
  | f :: fs => if e.before f then e :: f :: fs else f :: Frontier.push e fs

/-! ### States of a search -/

structure State (g : Grid) where
  /-- What has been found, in the order in which it was. -/
  results : List Int
  /-- What does not count any more. -/
  seen : Std.ExtTreeSet Int
  /-- What has been asked of the filter, in this order. -/
  asked : List Int
  searched : Std.ExtTreeSet g.Cell
  frontier : Frontier g
  /-- The least distance at which each cell has been offered. -/
  best : Std.ExtTreeMap g.Cell Float

namespace State

variable {g : Grid}

def start (g : Grid) (ids : List Int) : State g where
  results := []
  seen := Std.ExtTreeSet.ofList ids
  asked := []
  searched := ∅
  frontier := []
  best := ∅

def isFull (s : State g) (q : Query) : Bool :=
  q.maxCount ≤ s.results.length

def meet (q : Query) (s : State g) (entity : Int) : State g :=
  if s.isFull q then s
  else if s.seen.contains entity then s
  else
    { s with
      seen := s.seen.insert entity
      asked := s.asked ++ [entity]
      results := if q.accept entity then s.results ++ [entity] else s.results }

/-- Looks at the entities of a cell, in ascending order. -/
def meetAll (q : Query) (s : State g) (entities : Std.ExtTreeSet Int) : State g :=
  entities.toList.foldl (meet q) s

def mark (s : State g) (c : g.Cell) : State g :=
  { s with searched := s.searched.insert c }

/-- Offers a cell for the search, unless it was offered at no greater distance before. An infinity
or no number is never offered. -/
def offer (s : State g) (c : g.Cell) (distance : Float) : State g :=
  if distance < s.best.getD c (1.0 / 0.0) then
    { s with
      best := s.best.insert c distance
      frontier := s.frontier.push ⟨distance, c⟩ }
  else s

/-- Offers the cells beside a searched cell that have not been searched. -/
def extend (distance : g.Cell → g.Cell → Float) (s : State g) (c : g.Cell) : State g :=
  (g.cellsBeside c).foldl
    (fun s d => if s.searched.contains d then s else s.offer d (distance c d)) s

/-- Whether an entry need not be looked at: its cell has been searched, or offered at a shorter
distance. -/
def isStale (s : State g) (e : Entry g) : Bool :=
  s.searched.contains e.cell ||
    match s.best[e.cell]? with
    | some d => d < e.distance
    | none => false

def unsearched (s : State g) : Nat :=
  g.cells.countP fun c => !s.searched.contains c

theorem searched_offer (s : State g) (c : g.Cell) (d : Float) :
    (s.offer c d).searched = s.searched := by
  unfold offer
  split <;> rfl

theorem searched_extend (distance : g.Cell → g.Cell → Float) (s : State g) (c : g.Cell) :
    (s.extend distance c).searched = s.searched := by
  unfold extend
  generalize g.cellsBeside c = cs
  induction cs generalizing s with
  | nil => rfl
  | cons d ds ih =>
    rw [List.foldl_cons, ih]
    split
    · rfl
    · exact searched_offer ..

theorem searched_meet (q : Query) (s : State g) (entity : Int) :
    (s.meet q entity).searched = s.searched := by
  unfold meet
  split
  · rfl
  · split <;> rfl

theorem searched_meetAll (q : Query) (s : State g) (entities : Std.ExtTreeSet Int) :
    (s.meetAll q entities).searched = s.searched := by
  unfold meetAll
  generalize entities.toList = es
  induction es generalizing s with
  | nil => rfl
  | cons e es ih => rw [List.foldl_cons, ih, searched_meet]

theorem unsearched_lt {s t : State g} {c : g.Cell} (hc : c ∉ s.searched)
    (ht : t.searched = s.searched.insert c) : t.unsearched < s.unsearched := by
  have hle : ∀ d : g.Cell, (!t.searched.contains d) = true → (!s.searched.contains d) = true := by
    intro d
    simp only [ht, Std.ExtTreeSet.contains_insert, Bool.not_eq_true', Bool.or_eq_false_iff]
    exact And.right
  have hmem : c ∈ g.cells := List.mem_finRange c
  unfold unsearched
  generalize g.cells = cs at hmem
  have hmono (ds : List g.Cell) : ds.countP (fun d => !t.searched.contains d) ≤
      ds.countP (fun d => !s.searched.contains d) :=
    List.countP_mono_left fun d _ => hle d
  induction cs with
  | nil => simp at hmem
  | cons d ds ih =>
    by_cases hd : d = c
    · subst hd
      have h1 : t.searched.contains d = true := by simp [ht]
      have h2 : s.searched.contains d = false := by
        rw [← Bool.not_eq_true, Std.ExtTreeSet.contains_iff_mem]
        exact hc
      have := hmono ds
      simp [h1, h2]
      omega
    · have := ih (by simpa [Ne.symm hd] using hmem)
      have := hle d
      simp only [List.countP_cons]
      split <;> split <;> simp_all

theorem not_mem_of_isStale {s : State g} {e : Entry g} (h : ¬ s.isStale e = true) :
    e.cell ∉ s.searched := by
  intro hm
  exact h (by simp [isStale, hm])

end State

/-! ### The search -/

def visit {g : Grid} (index : EntityIndex) (q : Query) (s : State g) (p : Position) :
    Except Error (State g) :=
  match index.entitiesAt? p with
  | none => .error .noCell
  | some entities =>
    .ok ((match g.cell? p with
      | some c => s.mark c
      | none => s).meetAll q entities)

def expand {g : Grid} (index : EntityIndex) (distance : g.Cell → g.Cell → Float) (q : Query)
    (s : State g) (c : g.Cell) : Except Error (State g) :=
  match index.entitiesAt? (g.position c) with
  | none => .error .noCell
  | some entities => .ok (((s.mark c).meetAll q entities).extend distance c)

theorem searched_expand {g : Grid} {index : EntityIndex} {distance : g.Cell → g.Cell → Float}
    {q : Query} {s t : State g} {c : g.Cell} (h : expand index distance q s c = .ok t) :
    t.searched = s.searched.insert c := by
  unfold expand at h
  split at h
  · simp at h
  · cases h
    rw [State.searched_extend, State.searched_meetAll]
    rfl

def Query.isBeyond (q : Query) (distance : Float) : Bool :=
  match q.maxDistance with
  | some limit => limit < distance
  | none => false

/-- Searches cell after cell until enough has been found, no cell is left, or the next one is too
far away. -/
def run {g : Grid} (index : EntityIndex) (distance : g.Cell → g.Cell → Float) (q : Query)
    (s : State g) : Except Error (State g) :=
  if s.isFull q then .ok s
  else
    match _hf : s.frontier with
    | [] => .ok s
    | e :: rest =>
      if _hs : s.isStale e then run index distance q { s with frontier := rest }
      else if q.isBeyond e.distance then .ok { s with frontier := rest }
      else
        match _he : expand index distance q { s with frontier := rest } e.cell with
        | .error err => .error err
        | .ok t => run index distance q t
termination_by (s.unsearched, s.frontier.length)
decreasing_by
  · rw [_hf]
    exact Prod.Lex.right _ (Nat.lt_succ_self _)
  · have ht := searched_expand _he
    exact Prod.Lex.left _ _ (State.unsearched_lt (State.not_mem_of_isStale _hs) ht)

/-- Offers the cells beside a position at which the search begins. -/
def seed (n : Network) (s : State n.grid) (p : Position) : Except Error (State n.grid) :=
  if (n.grid.cellsAround p).all s.searched.contains then .ok s
  else
    match n.requireTrained, n.cellAt p with
    | .error e, _ => .error (.network e)
    | .ok (), .error e => .error (.network e)
    | .ok (), .ok c => .ok (s.extend n.cellDistance c)

def startPositions (index : EntityIndex) (ids : List Int) : PositionSet :=
  ids.foldl (fun ps id => ps ∪ index.positionsOf id) ∅

/-- Positions in the order in which they are visited first: row by row. -/
def rowByRow (ps : List Position) : List Position :=
  ps.mergeSort fun p q => decide (p.y < q.y ∨ (p.y = q.y ∧ p.x ≤ q.x))

/-- The state in which a search ends. `order` is the order in which the first positions offer the
cells beside them; the result does not depend on it. -/
def searchFrom (n : Network) (index : EntityIndex) (q : Query) (order : List Position) :
    Except Error (State n.grid) := do
  let s ← (rowByRow order).foldlM (visit index q) (State.start n.grid q.ids)
  let s ← order.foldlM (seed n) s
  run index n.cellDistance q s

/-- The state in which the search for similar entities ends. -/
def search (n : Network) (index : EntityIndex) (q : Query) : Except Error (State n.grid) :=
  if q.maxCount ≤ 0 then .ok (State.start n.grid q.ids)
  else searchFrom n index q (startPositions index q.ids).toList

/-- The entities similar to those asked for, in the order in which they are found. -/
def findSimilar (n : Network) (index : EntityIndex) (q : Query) : Except Error (List Int) :=
  (search n index q).map (·.results)

end SoundAtlas.Search
