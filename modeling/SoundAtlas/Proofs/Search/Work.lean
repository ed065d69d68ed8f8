import Mathlib
import SoundAtlas.Proofs.Chains
import SoundAtlas.Proofs.Grid.Rows
import SoundAtlas.Proofs.Search.Expansion

/-!
The work of a search. An account goes along with it and records which cells are visited, which
entries are put into the frontier and which are taken out again. No cell is visited twice and no
step from cell to cell leads to two entries, so that a search takes no more turns than there are
steps on its grid.
-/

namespace SoundAtlas.Search

variable {g : Grid} {index : EntityIndex} {q : Query} {s : State g}
  {distance : g.Cell → g.Cell → Float} {c d : g.Cell}

/-! ### What is asked of the filter -/

/-- The filter has been asked at most once about any entity, and about none of those asked for. -/
structure State.Asks (q : Query) (s : State g) : Prop where
  nodup : s.asked.Nodup
  not_mem_ids : ∀ id ∈ s.asked, id ∉ q.ids
  seen : ∀ id, id ∈ s.seen ↔ id ∈ q.ids ∨ id ∈ s.asked

lemma State.asks_start (g : Grid) (q : Query) : (State.start g q.ids).Asks q where
  nodup := List.nodup_nil
  not_mem_ids := by simp [State.start]
  seen id := by simp [State.start, Std.ExtTreeSet.mem_ofList]

lemma State.Asks.congr {t : State g} (h : s.Asks q) (ha : t.asked = s.asked)
    (hs : t.seen = s.seen) : t.Asks q where
  nodup := ha ▸ h.nodup
  not_mem_ids := ha ▸ h.not_mem_ids
  seen := ha ▸ hs ▸ h.seen

/-- **One more entity**: the filter is asked about it only if it has not been seen. -/
lemma State.Asks.meet (h : s.Asks q) (entity : Int) : (s.meet q entity).Asks q := by
  unfold State.meet
  split
  · exact h
  · split
    · exact h
    · rename_i hnew
      rw [Std.ExtTreeSet.contains_iff_mem, h.seen, not_or] at hnew
      obtain ⟨hq, ha⟩ := hnew
      have hnodup : (s.asked ++ [entity]).Nodup := List.concat_eq_append ▸ h.nodup.concat ha
      refine ⟨hnodup, fun id hid => ?_, fun id => ?_⟩
      · rcases List.mem_append.1 hid with hid | hid
        · exact h.not_mem_ids id hid
        · rwa [List.mem_singleton.1 hid]
      · change id ∈ s.seen.insert entity ↔ _
        rw [Std.ExtTreeSet.mem_insert, h.seen, Std.LawfulEqOrd.compare_eq_iff_eq,
          List.mem_append, List.mem_singleton]
        tauto

lemma State.Asks.meetAll (h : s.Asks q) (entities : Std.ExtTreeSet Int) :
    (s.meetAll q entities).Asks q :=
  List.foldlRecOn _ _ h fun _ hs entity _ => hs.meet entity

/-! ### Accounts -/

structure Account (g : Grid) where
  state : State g
  /-- The cells visited, in this order. -/
  visits : List g.Cell
  /-- The entries put into the frontier, each with the cell that it was offered from. -/
  pushes : List (g.Cell × Entry g)
  /-- The entries taken from the frontier, each with the least distance known of its cell then. -/
  pops : List (Entry g × Option Float)

namespace Account

section

/-- Cells are in the order of their numbers. -/
local instance transOrdCell (g : Grid) : Std.TransOrd g.Cell :=
  Fin.instTransOrd g.size

def start (g : Grid) (ids : List Int) : Account g :=
  ⟨State.start g ids, [], [], []⟩

def visit (index : EntityIndex) (q : Query) (a : Account g) (p : Position) :
    Except Error (Account g) :=
  (Search.visit index q a.state p).map fun s =>
    { a with state := s, visits := a.visits ++ (g.cell? p).toList }

def offer (c : g.Cell) (a : Account g) (d : g.Cell) (x : Float) : Account g :=
  { a with
    state := a.state.offer d x
    -- an entry is noted under the condition under which the search puts it in
    pushes :=
      if x < a.state.best.getD d (1.0 / 0.0) then a.pushes ++ [(c, ⟨x, d⟩)] else a.pushes }

/-- Offers the cells beside a searched cell that have not been searched. -/
def extend (distance : g.Cell → g.Cell → Float) (a : Account g) (c : g.Cell) : Account g :=
  (g.cellsBeside c).foldl
    (fun a d => if a.state.searched.contains d then a else a.offer c d (distance c d)) a

def pop (a : Account g) (e : Entry g) (rest : Frontier g) : Account g :=
  { a with
    state := { a.state with frontier := rest }
    pops := a.pops ++ [(e, a.state.best[e.cell]?)] }

def expand (index : EntityIndex) (distance : g.Cell → g.Cell → Float) (q : Query)
    (a : Account g) (c : g.Cell) : Except Error (Account g) :=
  (a.visit index q (g.position c)).map (·.extend distance c)

/-- Searches cell after cell, taking one entry in each turn. Nothing is returned if the turns do not
suffice. -/
def run (index : EntityIndex) (distance : g.Cell → g.Cell → Float) (q : Query) (turns : ℕ)
    (a : Account g) : Except Error (Option (Account g)) :=
  if a.state.isFull q then .ok (some a)
  else
    match a.state.frontier, turns with
    | [], _ => .ok (some a)
    | _ :: _, 0 => .ok none
    | e :: rest, turns + 1 =>
      if a.state.isStale e then run index distance q turns (a.pop e rest)
      else if q.isBeyond e.distance then .ok (some (a.pop e rest))
      else (a.pop e rest).expand index distance q e.cell >>= run index distance q turns

/-- Whether all cells beside a position have been searched. -/
def isSurrounded (a : Account g) (p : Position) : Bool :=
  (g.cellsAround p).all a.state.searched.contains

/-- Offers the cells beside a position at which the search begins. -/
def seed (n : Network) (a : Account n.grid) (p : Position) : Except Error (Account n.grid) :=
  if a.isSurrounded p then .ok a
  else
    match n.requireTrained, n.cellAt p with
    | .error e, _ => .error (.network e)
    | .ok (), .error e => .error (.network e)
    | .ok (), .ok c => .ok (a.extend n.cellDistance c)

/-- The account of a search that begins at the positions given and may take so many turns. -/
def searchFrom (n : Network) (index : EntityIndex) (q : Query) (order : List Position)
    (turns : ℕ) : Except Error (Option (Account n.grid)) := do
  let a ← (rowByRow order).foldlM (visit index q) (start n.grid q.ids)
  let a ← order.foldlM (seed n) a
  run index n.cellDistance q turns a

def search (n : Network) (index : EntityIndex) (q : Query) (order : List Position) (turns : ℕ) :
    Except Error (Option (Account n.grid)) :=
  if q.maxCount ≤ 0 then .ok (some (start n.grid q.ids)) else searchFrom n index q order turns

end

/-! ### An account goes along with the search -/

variable {a b : Account g} {done : List g.Cell} {turns : ℕ}

lemma state_visit (a : Account g) (p : Position) :
    (a.visit index q p).map state = Search.visit index q a.state p := by
  rw [visit]
  cases Search.visit index q a.state p <;> rfl

lemma state_extend (a : Account g) (c : g.Cell) :
    (a.extend distance c).state = a.state.extend distance c := by
  refine (List.foldl_hom state fun a d => ?_).symm
  rw [apply_ite state]
  rfl

lemma state_expand (a : Account g) (c : g.Cell) :
    (a.expand index distance q c).map state = Search.expand index distance q a.state c := by
  rw [expand, visit, Search.visit, Search.expand, Grid.cell?_position]
  cases index.entitiesAt? (g.position c) with
  | none => rfl
  | some entities => exact congrArg Except.ok (state_extend _ c)

lemma state_seed (n : Network) (a : Account n.grid) (p : Position) :
    (a.seed n p).map state = Search.seed n a.state p := by
  rw [seed, Search.seed, apply_ite (Except.map state)]
  refine ite_congr rfl (fun _ => rfl) fun _ => ?_
  cases n.requireTrained with
  | error e => rfl
  | ok _ =>
    cases n.cellAt p with
    | error e => rfl
    | ok c => exact congrArg Except.ok (state_extend a c)

lemma state_foldlM {f : Account g → Position → Except Error (Account g)}
    {f' : State g → Position → Except Error (State g)}
    (hstep : ∀ a p, (f a p).map state = f' a.state p) {ps : List Position}
    (h : ps.foldlM f a = .ok b) : ps.foldlM f' a.state = .ok b.state := by
  induction ps generalizing a with
  | nil => exact congrArg (Except.map state) h
  | cons p ps ih =>
    rw [List.foldlM_cons] at h ⊢
    obtain ⟨c, hc, h⟩ := bind_eq_ok.1 h
    refine bind_eq_ok.2 ⟨c.state, ?_, ih h⟩
    rw [← hstep, hc]
    rfl

/-- There is nothing to go on for: enough has been found, or no cell is left. -/
def HasEnded (q : Query) (a : Account g) : Prop :=
  a.state.isFull q = true ∨ a.state.frontier = []

lemma run_of_hasEnded (h : a.HasEnded q) (turns : ℕ) :
    run index distance q turns a = .ok (some a) := by
  unfold run
  rcases h with hfull | hf
  · rw [if_pos hfull]
  · rw [hf, ite_self]

lemma search_of_hasEnded (h : a.HasEnded q) :
    Search.run index distance q a.state = .ok a.state := by
  rcases h with hfull | hf
  · rw [Search.run, if_pos hfull]
  · exact Search.run_of_nil hf

lemma exists_entry (h : ¬ a.HasEnded q) :
    ¬ a.state.isFull q = true ∧ ∃ e rest, a.state.frontier = e :: rest := by
  obtain ⟨hfull, hf⟩ := not_or.1 h
  exact ⟨hfull, List.exists_cons_of_ne_nil hf⟩

lemma run_zero (h : ¬ a.HasEnded q) : run index distance q 0 a = .ok none := by
  obtain ⟨hfull, e, rest, hf⟩ := exists_entry h
  unfold run
  rw [if_neg hfull, hf]

lemma run_succ {e : Entry g} {rest : Frontier g} (h : ¬ a.HasEnded q)
    (hf : a.state.frontier = e :: rest) (turns : ℕ) : run index distance q (turns + 1) a =
      if a.state.isStale e then run index distance q turns (a.pop e rest)
      else if q.isBeyond e.distance then .ok (some (a.pop e rest))
      else (a.pop e rest).expand index distance q e.cell >>= run index distance q turns := by
  conv_lhs => unfold run
  rw [if_neg (exists_entry h).1, hf]

lemma state_run (h : run index distance q turns a = .ok (some b)) :
    Search.run index distance q a.state = .ok b.state := by
  induction turns generalizing a with
  | zero =>
    by_cases hend : a.HasEnded q
    · rw [run_of_hasEnded hend] at h
      obtain rfl := Option.some.inj (Except.ok.inj h)
      exact search_of_hasEnded hend
    · rw [run_zero hend] at h
      cases h
  | succ turns ih =>
    by_cases hend : a.HasEnded q
    · rw [run_of_hasEnded hend] at h
      obtain rfl := Option.some.inj (Except.ok.inj h)
      exact search_of_hasEnded hend
    obtain ⟨hfull, e, rest, hf⟩ := exists_entry hend
    rw [run_succ hend hf] at h
    rw [Search.run_of_cons hfull hf]
    split at h
    · rename_i hs
      rw [if_pos hs]
      exact ih h
    rename_i hs
    rw [if_neg hs]
    split at h
    · rename_i hb
      obtain rfl := Option.some.inj (Except.ok.inj h)
      rw [if_pos hb]
      rfl
    · rename_i hb
      obtain ⟨c, hc, hrun⟩ := bind_eq_ok.1 h
      have hstate : Search.expand index distance q (a.pop e rest).state e.cell = .ok c.state := by
        rw [← state_expand, hc]
        rfl
      rw [if_neg hb, ← ih hrun]
      exact congrArg (· >>= Search.run index distance q) hstate

lemma state_searchFrom {n : Network} {order : List Position} {a : Account n.grid}
    (h : searchFrom n index q order turns = .ok (some a)) :
    Search.searchFrom n index q order = .ok a.state := by
  obtain ⟨b, hb, h⟩ := bind_eq_ok.1 h
  obtain ⟨c, hc, h⟩ := bind_eq_ok.1 h
  exact bind_eq_ok.2 ⟨b.state, state_foldlM state_visit hb,
    bind_eq_ok.2 ⟨c.state, state_foldlM (state_seed n) hc, state_run h⟩⟩

/-! ### What holds of every account -/

/-- The steps from cell to cell for which an entry was put into the frontier. -/
def taken (a : Account g) : List (g.Cell × g.Cell) :=
  a.pushes.map fun push => (push.1, push.2.cell)

/-- An account that is in order, with the cells that have offered those beside them. -/
structure Sound (q : Query) (done : List g.Cell) (a : Account g) : Prop where
  asks : a.state.Asks q
  nodup_visits : a.visits.Nodup
  mem_visits : ∀ c, c ∈ a.visits ↔ c ∈ a.state.searched
  searched : ∀ c ∈ done, c ∈ a.state.searched
  /-- What was put into the frontier has been taken out or is still in it. -/
  balance : a.pushes.length = a.pops.length + a.state.frontier.length
  taken : ∀ step ∈ a.taken, step.1 ∈ done ∧ step ∈ g.steps
  nodup_taken : a.taken.Nodup
  waiting : ∀ e ∈ a.state.frontier, e.cell ∈ a.state.best
  popped : ∀ pop ∈ a.pops, pop.2.isSome = true

lemma sound_start (g : Grid) (q : Query) : (start g q.ids).Sound q [] where
  asks := State.asks_start g q
  nodup_visits := List.nodup_nil
  mem_visits c := by simp [start, State.start]
  searched := nofun
  balance := rfl
  taken := nofun
  nodup_taken := List.nodup_nil
  waiting := nofun
  popped := nofun

/-- **No more entries than steps** are put into the frontier. -/
lemma Sound.length_pushes_le (h : a.Sound q done) : a.pushes.length ≤ g.steps.card := by
  have hsteps : a.taken.toFinset ⊆ g.steps :=
    fun step hs => (h.taken step (List.mem_toFinset.1 hs)).2
  calc a.pushes.length = a.taken.length := (List.length_map _).symm
    _ = a.taken.toFinset.card := (List.toFinset_card_of_nodup h.nodup_taken).symm
    _ ≤ g.steps.card := Finset.card_le_card hsteps

/-! ### Offers -/

lemma length_push (e : Entry g) (f : Frontier g) : (f.push e).length = f.length + 1 := by
  induction f with
  | nil => rfl
  | cons x xs ih =>
    rw [Frontier.push]
    split
    · rfl
    · rw [List.length_cons, ih, List.length_cons]

lemma offer_of_not_lt {x : Float} (hx : ¬ x < a.state.best.getD d (1.0 / 0.0)) :
    a.offer c d x = a := by
  rw [offer, State.offer, if_neg hx, if_neg hx]

lemma offer_of_lt {x : Float} (hx : x < a.state.best.getD d (1.0 / 0.0)) :
    a.offer c d x =
      { a with
        state :=
          { a.state with
            best := a.state.best.insert d x
            frontier := a.state.frontier.push ⟨x, d⟩ }
        pushes := a.pushes ++ [(c, ⟨x, d⟩)] } := by
  rw [offer, State.offer, if_pos hx, if_pos hx]

lemma taken_offer (a : Account g) (c d : g.Cell) (x : Float) :
    (a.offer c d x).taken = a.taken ∨ (a.offer c d x).taken = a.taken ++ [(c, d)] := by
  by_cases hx : x < a.state.best.getD d (1.0 / 0.0)
  · rw [offer_of_lt hx]
    exact .inr (List.map_append ..)
  · exact .inl (congrArg Account.taken (offer_of_not_lt hx))

/-- **One more offer**, on a step that has not been taken. -/
lemma Sound.offer (h : a.Sound q done) (hc : c ∈ done) (hd : d ∈ g.cellsBeside c)
    (hnew : (c, d) ∉ a.taken) (x : Float) : (a.offer c d x).Sound q done := by
  by_cases hx : x < a.state.best.getD d (1.0 / 0.0)
  · have htaken : (a.offer c d x).taken = a.taken.concat (c, d) := by
      rw [offer_of_lt hx, List.concat_eq_append]
      exact List.map_append ..
    rw [offer_of_lt hx] at htaken ⊢
    exact
      { h with
        asks := h.asks.congr rfl rfl
        balance := by
          rw [List.length_append, h.balance, length_push]
          rfl
        taken := by
          rw [htaken, List.concat_eq_append]
          exact List.forall_mem_append.2
            ⟨h.taken, List.forall_mem_singleton.2 ⟨hc, Grid.mem_steps.2 hd⟩⟩
        nodup_taken := htaken ▸ h.nodup_taken.concat hnew
        waiting := fun e he => by
          rw [Std.ExtTreeMap.mem_insert]
          rcases mem_push.1 he with rfl | he
          · exact .inl (Std.LawfulEqOrd.compare_eq_iff_eq.2 rfl)
          · exact .inr (h.waiting e he) }
  · rwa [offer_of_not_lt hx]

lemma Sound.offerAll {ds : List g.Cell} (h : a.Sound q done) (hc : c ∈ done)
    (hds : ∀ d ∈ ds, d ∈ g.cellsBeside c) (hnodup : ds.Nodup)
    (hnew : ∀ d ∈ ds, (c, d) ∉ a.taken) :
    (ds.foldl (fun a d => if a.state.searched.contains d then a else a.offer c d (distance c d))
      a).Sound q done := by
  -- an offer takes at most its own step, so those of the cells that follow stay untaken
  induction ds generalizing a with
  | nil => exact h
  | cons d ds ih =>
    obtain ⟨hd, hds⟩ := List.forall_mem_cons.1 hds
    obtain ⟨hfirst, hnodup⟩ := List.nodup_cons.1 hnodup
    obtain ⟨hstep, hnew⟩ := List.forall_mem_cons.1 hnew
    rw [List.foldl_cons]
    split
    · exact ih h hds hnodup hnew
    · refine ih (h.offer hc hd hstep _) hds hnodup fun r hr hin => ?_
      rcases taken_offer a c d (distance c d) with heq | heq
      · exact hnew r hr (heq ▸ hin)
      · rcases List.mem_append.1 (heq ▸ hin) with hin | hin
        · exact hnew r hr hin
        · obtain rfl : r = d := (Prod.mk.inj (List.mem_singleton.1 hin)).2
          exact hfirst hr

/-- **A searched cell offers those beside it**, if it has not done so before. -/
lemma Sound.extend (h : a.Sound q done) (hs : c ∈ a.state.searched) (hc : c ∉ done) :
    (a.extend distance c).Sound q (c :: done) := by
  have hbegun : a.Sound q (c :: done) :=
    { h with
      searched := List.forall_mem_cons.2 ⟨hs, h.searched⟩
      taken := fun step hstep =>
        ⟨List.mem_cons_of_mem _ (h.taken step hstep).1, (h.taken step hstep).2⟩ }
  exact hbegun.offerAll List.mem_cons_self (fun _ hd => hd) (Grid.nodup_cellsBeside c)
    fun d _ hin => hc (h.taken _ hin).1

/-! ### Visits -/

lemma pops_visit {p : Position} (h : a.visit index q p = .ok b) : b.pops = a.pops := by
  rw [visit] at h
  cases hs : Search.visit index q a.state p with
  | error e =>
    rw [hs] at h
    cases h
  | ok s =>
    rw [hs] at h
    exact Except.ok.inj h ▸ rfl

lemma pops_extend (a : Account g) (c : g.Cell) : (a.extend distance c).pops = a.pops := by
  unfold extend
  refine List.foldlRecOn (motive := fun b : Account g => b.pops = a.pops) _ _ rfl fun b hb d _ => ?_
  split <;> exact hb

lemma Sound.exists_visit (hix : index.OnGrid g) (h : a.Sound q done) (hc : c ∉ a.state.searched) :
    ∃ b, a.visit index q (g.position c) = .ok b ∧ b.Sound q done ∧
      ∀ d, d ∈ b.state.searched ↔ d = c ∨ d ∈ a.state.searched := by
  obtain ⟨entities, he⟩ := hix.entitiesAt? c
  obtain ⟨hfrontier, hbest⟩ := meetAll_frame q (a.state.mark c) entities
  have hmark : (a.state.mark c).Asks q := h.asks.congr rfl rfl
  have hsearched : ∀ d, d ∈ ((a.state.mark c).meetAll q entities).searched ↔
      d = c ∨ d ∈ a.state.searched := fun d => by
    rw [State.searched_meetAll, State.mark, Std.ExtTreeSet.mem_insert,
      Std.LawfulEqOrd.compare_eq_iff_eq, eq_comm]
  have hvisit : a.visit index q (g.position c) =
      .ok { a with state := (a.state.mark c).meetAll q entities, visits := a.visits ++ [c] } := by
    rw [visit, Search.visit, he, Grid.cell?_position]
    rfl
  refine ⟨_, hvisit, ?_, hsearched⟩
  exact
    { h with
      asks := hmark.meetAll entities
      nodup_visits := List.concat_eq_append ▸ h.nodup_visits.concat (mt (h.mem_visits c).1 hc)
      mem_visits := fun d => by
        rw [List.mem_append, List.mem_singleton, hsearched, h.mem_visits, or_comm]
      searched := fun d hd => (hsearched d).2 (.inr (h.searched d hd))
      balance := by
        rw [hfrontier]
        exact h.balance
      waiting := by
        rw [hfrontier, hbest]
        exact h.waiting }

/-- **A cell that has not been searched is visited, and offers those beside it.** -/
lemma Sound.exists_expand (distance : g.Cell → g.Cell → Float) (hix : index.OnGrid g)
    (h : a.Sound q done) (hc : c ∉ a.state.searched) :
    ∃ b, a.expand index distance q c = .ok b ∧ b.Sound q (c :: done) ∧ b.pops = a.pops := by
  obtain ⟨b, hb, hsound, hsearched⟩ := h.exists_visit hix hc
  refine ⟨b.extend distance c, ?_, ?_, ?_⟩
  · rw [expand, hb]
    rfl
  · exact hsound.extend ((hsearched c).2 (.inl rfl)) (mt (h.searched c) hc)
  · rw [pops_extend, pops_visit hb]

/-! ### Turns -/

/-- **An entry is taken**, and its cell has been offered. -/
lemma Sound.pop {e : Entry g} {rest : Frontier g} (h : a.Sound q done)
    (hf : a.state.frontier = e :: rest) : (a.pop e rest).Sound q done := by
  obtain ⟨hfirst, hrest⟩ := List.forall_mem_cons.1 (hf ▸ h.waiting)
  have hknown : a.state.best[e.cell]?.isSome = true :=
    Std.ExtTreeMap.isSome_getElem?_iff_mem.2 hfirst
  exact
    { h with
      asks := h.asks.congr rfl rfl
      balance := by
        have hbalance := h.balance
        rw [hf, List.length_cons] at hbalance
        simp only [Account.pop, List.length_append, List.length_singleton]
        omega
      waiting := hrest
      popped := List.forall_mem_append.2 ⟨h.popped, List.forall_mem_singleton.2 hknown⟩ }

/-- **The turns suffice** if, with those that have been taken, they are as many as the steps on the
grid: each takes an entry from the frontier, and no more than these have been put in. -/
lemma Sound.exists_run (hix : index.OnGrid g) (h : a.Sound q done)
    (hturns : g.steps.card ≤ turns + a.pops.length) :
    ∃ b, run index distance q turns a = .ok (some b) ∧ ∃ more, b.Sound q more := by
  induction turns generalizing a done with
  | zero =>
    by_cases hend : a.HasEnded q
    · exact ⟨a, run_of_hasEnded hend 0, done, h⟩
    · -- an entry is left, so more has been put in than there are steps
      obtain ⟨-, e, rest, hf⟩ := exists_entry hend
      have hbalance := h.balance
      have hfew := h.length_pushes_le
      rw [hf, List.length_cons] at hbalance
      omega
  | succ turns ih =>
    by_cases hend : a.HasEnded q
    · exact ⟨a, run_of_hasEnded hend _, done, h⟩
    obtain ⟨-, e, rest, hf⟩ := exists_entry hend
    have hpop := h.pop hf
    have hpops : g.steps.card ≤ turns + (a.pop e rest).pops.length := by
      simp only [Account.pop, List.length_append, List.length_singleton]
      omega
    rw [run_succ hend hf]
    split
    · exact ih hpop hpops
    rename_i hs
    split
    · exact ⟨_, rfl, done, hpop⟩
    · have hnew : e.cell ∉ (a.pop e rest).state.searched := State.not_mem_of_isStale hs
      obtain ⟨b, hb, hsound, hsame⟩ := hpop.exists_expand distance hix hnew
      rw [hb]
      exact ih hsound (hsame ▸ hpops)

/-! ### Where a search begins -/

lemma Sound.exists_visitAll (hix : index.OnGrid g) (h : a.Sound q done) {ds : List g.Cell}
    (hnodup : ds.Nodup) (hnew : ∀ d ∈ ds, d ∉ a.state.searched) :
    ∃ b, (ds.map g.position).foldlM (visit index q) a = .ok b ∧ b.Sound q done ∧
      ∀ c, c ∈ b.state.searched ↔ c ∈ ds ∨ c ∈ a.state.searched := by
  induction ds generalizing a with
  | nil => exact ⟨a, rfl, h, by simp⟩
  | cons d ds ih =>
    obtain ⟨hfirst, hnodup⟩ := List.nodup_cons.1 hnodup
    obtain ⟨hd, hnew⟩ := List.forall_mem_cons.1 hnew
    obtain ⟨b, hb, hsound, hsearched⟩ := h.exists_visit hix hd
    obtain ⟨t, ht, hsoundt, hall⟩ := ih hsound hnodup fun r hr hin => by
      rcases (hsearched r).1 hin with rfl | hin
      exacts [hfirst hr, hnew r hr hin]
    refine ⟨t, ?_, hsoundt, fun c => ?_⟩
    · rw [List.map_cons, List.foldlM_cons, hb]
      exact ht
    · rw [hall, hsearched, List.mem_cons]
      tauto

lemma Sound.exists_seed {n : Network} {a : Account n.grid} {done : List n.Cell} {d : n.Cell}
    (hn : n.state = .trained) (h : a.Sound q done) (hs : d ∈ a.state.searched) (hd : d ∉ done) :
    ∃ b, a.seed n (n.grid.position d) = .ok b ∧
      (∃ more, b.Sound q more ∧ ∀ c ∈ more, c = d ∨ c ∈ done) ∧
      b.state.searched = a.state.searched := by
  rw [seed]
  split
  · exact ⟨a, rfl, ⟨done, h, fun _ hc => .inr hc⟩, rfl⟩
  · have hr : n.requireTrained = .ok () := by rw [Network.requireTrained, if_pos hn]
    have hc : n.cellAt (n.grid.position d) = .ok d := by rw [Network.cellAt, Grid.cell?_position]
    rw [hr, hc]
    refine ⟨_, rfl, ⟨d :: done, h.extend hs hd, fun c => List.mem_cons.1⟩, ?_⟩
    rw [state_extend, State.searched_extend]

lemma Sound.exists_seedAll {n : Network} {a : Account n.grid} {done : List n.Cell}
    (hn : n.state = .trained) (h : a.Sound q done) {ds : List n.Cell} (hnodup : ds.Nodup)
    (hs : ∀ d ∈ ds, d ∈ a.state.searched) (hnew : ∀ d ∈ ds, d ∉ done) :
    ∃ b, (ds.map n.grid.position).foldlM (seed n) a = .ok b ∧ ∃ more, b.Sound q more := by
  induction ds generalizing a done with
  | nil => exact ⟨a, rfl, done, h⟩
  | cons d ds ih =>
    obtain ⟨hfirst, hnodup⟩ := List.nodup_cons.1 hnodup
    obtain ⟨hsd, hs⟩ := List.forall_mem_cons.1 hs
    obtain ⟨hd, hnew⟩ := List.forall_mem_cons.1 hnew
    obtain ⟨b, hb, ⟨more, hsound, hmore⟩, hsearched⟩ := h.exists_seed hn hsd hd
    obtain ⟨t, ht, hsoundt⟩ := ih hsound hnodup (hsearched ▸ hs) fun r hr hin => by
      rcases hmore r hin with rfl | hin
      exacts [hfirst hr, hnew r hr hin]
    refine ⟨t, ?_, hsoundt⟩
    rw [List.map_cons, List.foldlM_cons, hb]
    exact ht

/-! ### The whole search -/

/-- **The account of a search comes to an end in order**, whatever cell is the first to offer those
beside it. -/
lemma exists_searchFrom {n : Network} (hn : n.state = .trained) (h : index.OnGrid n.grid)
    {order : List Position} (ho : order.Perm (startPositions index q.ids).toList) :
    ∃ a, searchFrom n index q order n.grid.steps.card = .ok (some a) ∧ ∃ done, a.Sound q done := by
  obtain ⟨ds, rfl, hmem⟩ := exists_order h ho
  have hcells : (startCells n.grid index q.ids).Nodup := (List.nodup_finRange _).filter _
  have hds : ds.Nodup := by
    have hperm := ho.trans (startPositions_perm h q.ids)
    exact ((List.map_perm_map_iff Grid.position_injective).1 hperm).nodup_iff.2 hcells
  obtain ⟨a, ha, hsound, hsearched⟩ := (sound_start n.grid q).exists_visitAll h hcells
    (by simp [start, State.start])
  obtain ⟨b, hb, done, hsoundb⟩ := hsound.exists_seedAll hn hds
    (fun d hd => (hsearched d).2 (.inl ((hmem d).1 hd))) (fun _ _ => List.not_mem_nil)
  obtain ⟨t, ht, hsoundt⟩ : ∃ t, run index n.cellDistance q n.grid.steps.card b = .ok (some t) ∧
      ∃ more, t.Sound q more := hsoundb.exists_run h (Nat.le_add_right _ _)
  rw [← rowByRow_eq h ho] at ha
  exact ⟨t, bind_eq_ok.2 ⟨a, ha, bind_eq_ok.2 ⟨b, hb, ht⟩⟩, hsoundt⟩

end Account

/-- The bounds that the work of a search keeps. -/
structure Account.Bounded (q : Query) (a : Account g) : Prop where
  /-- No cell is visited twice. -/
  nodup_visits : a.visits.Nodup
  mem_visits : ∀ c, c ∈ a.visits ↔ c ∈ a.state.searched
  /-- Whatever is taken from the frontier has been offered. -/
  popped : ∀ pop ∈ a.pops, pop.2.isSome = true
  /-- The filter is asked at most once about any entity. -/
  nodup_asked : a.state.asked.Nodup
  asked : ∀ id ∈ a.state.asked, id ∉ q.ids
  /-- What is put into the frontier is taken out, or is left in it at the end. -/
  balance : a.pushes.length = a.pops.length + a.state.frontier.length
  /-- There are no more entries than steps from cell to cell. -/
  length_pushes_le : a.pushes.length ≤ g.steps.card

lemma Account.Sound.bounded {a : Account g} {done : List g.Cell} (h : a.Sound q done) :
    a.Bounded q where
  nodup_visits := h.nodup_visits
  mem_visits := h.mem_visits
  popped := h.popped
  nodup_asked := h.asks.nodup
  asked := h.asks.not_mem_ids
  balance := h.balance
  length_pushes_le := h.length_pushes_le

/-- **A search ends, and does a bounded amount of work.** It takes no more turns than there are
steps from cell to cell, which are two for each pair of cells side by side, in whatever order the
first cells offer those beside them. -/
theorem search_work_bounded (n : Network) (index : EntityIndex) (q : Query) (order : List Position)
    (hn : n.state = .trained) (h : index.OnGrid n.grid)
    (ho : order.Perm (startPositions index q.ids).toList) :
    n.grid.steps.card =
        2 * (n.grid.height * (n.grid.width - 1) + n.grid.width * (n.grid.height - 1)) ∧
      ∃ a, Account.search n index q order n.grid.steps.card = .ok (some a) ∧ a.Bounded q ∧
        findSimilar n index q = .ok a.state.results ∧
        (1 ≤ q.maxCount → searchFrom n index q order = .ok a.state) := by
  refine ⟨Grid.card_steps n.grid, ?_⟩
  rw [findSimilar_greedy hn h q, Account.search]
  split
  · rename_i hq
    have hnone : greedy n index q = [] := by
      unfold greedy found harvest
      rw [Int.toNat_of_nonpos hq, List.take_zero]
    refine ⟨_, rfl, (Account.sound_start n.grid q).bounded, congrArg _ hnone, fun hpos => ?_⟩
    omega
  · obtain ⟨a, ha, done, hsound⟩ := Account.exists_searchFrom hn h ho
    have hstate := Account.state_searchFrom ha
    have hresults := searchFrom_eq hn h q ho
    rw [hstate] at hresults
    exact ⟨a, ha, hsound.bounded, hresults.symm, fun _ => hstate⟩

theorem search_work_bounded_square :
    let q : Query := ⟨[1], 3, fun id => id ≠ 4, some 4.5⟩
    square.grid.steps.card = 8 ∧
      ∃ a, Account.search square squareIndex q (startPositions squareIndex q.ids).toList
          square.grid.steps.card = .ok (some a) ∧ a.Bounded q ∧
        findSimilar square squareIndex q = .ok a.state.results := by
  intro q
  obtain ⟨hsteps, a, ha, hbounded, hresults, -⟩ := search_work_bounded square squareIndex q _
    trained_square onGrid_squareIndex (List.Perm.refl _)
  exact ⟨hsteps, a, ha, hbounded, hresults⟩

end SoundAtlas.Search
