import SoundAtlas.Proofs.Engine.Lessons
import SoundAtlas.Proofs.Feature.Layout

/-!
The tracks that can be trained on. Collecting goes through the tracks of the catalog and keeps the
usable ones, each with its own vector and in their order. The others leave nothing behind, and it
is only at the questions before the tracks that collecting can be cancelled.
-/

namespace SoundAtlas.Engine

open Feature

variable {env : Surroundings} {names : List FeatureName} {tracks : List Int} {track : Int}
  {samples : List Sample} {s t : Session}

/-! ### One track -/

/-- The sample of a track, if the track is usable: it has values, and as many of each feature as are
declared. -/
def usable? (source : Source) (r : Registry) (d : Disk) (names : List FeatureName) (track : Int) :
    Option Sample :=
  match (source.fetch d track names).result with
  | .ok (some (value :: values)) =>
    match inputVector r (value :: values) names with
    | .ok (.ok v) => some (track, v)
    | _ => none
  | _ => none

def usableSamples (source : Source) (r : Registry) (d : Disk) (names : List FeatureName)
    (tracks : List Int) : List Sample :=
  tracks.filterMap (usable? source r d names)

/-- A track has an input vector exactly if all features are known, and it has as many values of each
as are declared. -/
lemma exists_vector_iff {r : Registry} {values : Values} :
    (∃ v, inputVector r values names = .ok (.ok v)) ↔
      ∀ name ∈ names, r.dimensions name = .ok ((found values name).length : ℤ) := by
  induction names with
  | nil => simp [inputVector]
  | cons name names ih =>
    rw [List.forall_mem_cons, ← ih, inputVector]
    cases hdimension : r.dimensions name with
    | error e => simp [bind, Except.bind]
    | ok n =>
      by_cases hlength : ((found values name).length : ℤ) = n
      · subst hlength
        simp only [bind, Except.bind, found, ne_eq, not_true_eq_false, if_false, true_and]
        rcases inputVector r values names with e | m | v <;> simp [pure, Except.pure]
      · have hmisfit : (((values.lookup name).getD []).length : ℤ) ≠ n := hlength
        refine iff_of_false ?_ fun h => hlength (Except.ok.inj h.1).symm
        simp only [bind, Except.bind, pure, Except.pure]
        rw [if_pos hmisfit]
        rintro ⟨v, hv⟩
        cases hv

/-- **A track is usable** if it has values, and as many of each feature as are declared. -/
lemma isSome_usable? {source : Source} {r : Registry} {d : Disk} :
    (usable? source r d names track).isSome ↔
      ∃ values, (source.fetch d track names).result = .ok (some values) ∧ values ≠ [] ∧
        ∀ name ∈ names, r.dimensions name = .ok ((found values name).length : ℤ) := by
  unfold usable?
  rcases (source.fetch d track names).result with f | _ | _ | ⟨value, values⟩
  · simp
  · simp
  · simp
  · simp only [Except.ok.injEq, Option.some.injEq, exists_eq_left', ne_eq, reduceCtorEq,
      not_false_eq_true, true_and, ← exists_vector_iff]
    rcases inputVector r (value :: values) names with e | m | v <;> simp

/-- The values of a track cannot be had, or a feature is not known. -/
def FailsAt (source : Source) (r : Registry) (d : Disk) (names : List FeatureName) (track : Int)
    (f : Fault) : Prop :=
  (∃ e, (source.fetch d track names).result = .error e ∧ f = .source e) ∨
    ∃ values e, (source.fetch d track names).result = .ok (some values) ∧
      inputVector r values names = .error e ∧ f = .features e

lemma fst_of_usable {source : Source} {r : Registry} {d : Disk} {x : Sample}
    (h : usable? source r d names track = some x) : x.1 = track := by
  unfold usable? at h
  split at h
  · split at h
    · cases h
      rfl
    · cases h
  · cases h

/-- The samples come from tracks in their order, and from none twice. -/
lemma sublist_usableSamples (source : Source) (r : Registry) (d : Disk) (names : List FeatureName)
    (tracks : List Int) :
    ((usableSamples source r d names tracks).map (·.1)).Sublist tracks := by
  unfold usableSamples
  induction tracks with
  | nil => exact .slnil
  | cons track tracks ih =>
    rw [List.filterMap_cons]
    split
    · exact ih.cons track
    · rename_i x hx
      rw [List.map_cons, fst_of_usable hx]
      exact ih.cons_cons track

/-! ### One fetch -/

/-- At the question before the `k`th of the tracks that are left, loading has been cancelled. -/
def CancelledBy (env : Surroundings) (s : Session) (k : ℕ) : Prop :=
  s.isCancelled = true ∨ ∃ j < k, env.cancels (.fetch (s.fetched.length + j)) = true

structure AfterFetch (env : Surroundings) (s t : Session) : Prop where
  disk : t.disk = s.disk
  engine : ∃ c, t.engine = { s.engine with token := c }
  cancelled : ∀ k, CancelledBy env t k ↔ CancelledBy env s (k + 1)

lemma afterFetch_fetch (env : Surroundings) (names : List FeatureName) (track : Int) (s : Session) :
    AfterFetch env s (fetch env names track s).2 := by
  refine ⟨disk_meet, engine_fetch env names track s, fun k => ?_⟩
  have hflag : (fetch env names track s).2.isCancelled = true ↔
      s.isCancelled = true ∨ env.cancels (.fetch s.fetched.length) = true := isCancelled_meet
  have hcount : (fetch env names track s).2.fetched.length = s.fetched.length + 1 := by
    simp [fetch, Session.warn]
  unfold CancelledBy
  rw [hflag, hcount, or_assoc]
  refine or_congr_right ⟨?_, ?_⟩
  · rintro (h | ⟨j, hj, h⟩)
    · exact ⟨0, k.succ_pos, h⟩
    · exact ⟨j + 1, Nat.succ_lt_succ hj, by rwa [Nat.add_comm j, ← Nat.add_assoc]⟩
  · rintro ⟨_ | j, hj, h⟩
    · exact .inl h
    · exact .inr ⟨j, Nat.lt_of_succ_lt_succ hj, by rwa [Nat.add_assoc, Nat.add_comm 1]⟩

lemma AfterFetch.warn (h : AfterFetch env s t) (ws : List Warning) : AfterFetch env s (t.warn ws) :=
  ⟨h.disk, h.engine, h.cancelled⟩

lemma AfterFetch.registry (h : AfterFetch env s t) : t.engine.registry = s.engine.registry := by
  obtain ⟨c, hc⟩ := h.engine
  rw [hc]

/-! ### All tracks -/

/-- What collecting comes to: it has been cancelled at one of the questions, it has failed at a
track, or the samples of the usable tracks have been added to those that there were. -/
inductive Collected (env : Surroundings) (names : List FeatureName) (tracks : List Int)
    (samples : List Sample) (s : Session) : Except Fault (Option (List Sample)) → Prop where
  | cancelled (k : ℕ) (hk : k < tracks.length) (h : CancelledBy env s k) :
    Collected env names tracks samples s (.ok none)
  | failed (track : Int) (f : Fault) (htrack : track ∈ tracks)
    (h : FailsAt env.source s.engine.registry s.disk names track f) :
    Collected env names tracks samples s (.error f)
  | done (h : ∀ k < tracks.length, ¬ CancelledBy env s k) :
    Collected env names tracks samples s
      (.ok (some (samples ++ usableSamples env.source s.engine.registry s.disk names tracks)))

lemma Collected.cons {r : Except Fault (Option (List Sample))} (hcalm : ¬ s.isCancelled = true)
    (h : AfterFetch env s t) (more : List Sample)
    (hmore : more = (usable? env.source s.engine.registry s.disk names track).toList)
    (hrest : Collected env names tracks (samples ++ more) t r) :
    Collected env names (track :: tracks) samples s r := by
  have hfirst : usableSamples env.source s.engine.registry s.disk names (track :: tracks) =
      more ++ usableSamples env.source s.engine.registry s.disk names tracks := by
    rw [hmore, usableSamples, List.filterMap_cons]
    cases usable? env.source s.engine.registry s.disk names track <;> rfl
  cases hrest with
  | cancelled k hk hby => exact .cancelled (k + 1) (Nat.succ_lt_succ hk) ((h.cancelled k).1 hby)
  | failed track' f htrack hf =>
    rw [h.registry, h.disk] at hf
    exact .failed track' f (List.mem_cons_of_mem track htrack) hf
  | done hdone =>
    rw [h.registry, h.disk, List.append_assoc, ← hfirst]
    refine .done fun k hk => ?_
    cases k with
    | zero =>
      rintro (hnow | ⟨j, hj, -⟩)
      · exact hcalm hnow
      · exact absurd hj (Nat.not_lt_zero j)
    | succ k => exact mt (h.cancelled k).2 (hdone k (Nat.lt_of_succ_lt_succ hk))

lemma collected_collect (env : Surroundings) (names : List FeatureName) (tracks : List Int)
    (samples : List Sample) (s : Session) :
    Collected env names tracks samples s (collect env names tracks samples s).1 := by
  induction tracks generalizing samples s with
  | nil =>
    have hnone : Collected env names [] samples s (.ok (some (samples ++ []))) :=
      .done fun k hk => absurd hk (Nat.not_lt_zero k)
    rwa [List.append_nil] at hnone
  | cons track tracks ih =>
    rw [collect]
    split
    · rename_i hcancelled
      exact .cancelled 0 (Nat.zero_lt_succ _) (.inl hcancelled)
    · rename_i hcalm
      have hafter := afterFetch_fetch env names track s
      have hresult : (fetch env names track s).1 =
        (env.source.fetch s.disk track names).result.mapError .source := rfl
      -- a track without values, and one with the wrong number of them, add no sample
      have hskip {t : Session} (h : AfterFetch env s t)
          (hunusable : usable? env.source s.engine.registry s.disk names track = none) :
          Collected env names (track :: tracks) samples s
            (collect env names tracks samples t).1 := by
        refine .cons hcalm h [] (by rw [hunusable]; rfl) ?_
        rw [List.append_nil]
        exact ih samples t
      rcases hfetched : fetch env names track s with ⟨r, t⟩
      rw [hfetched] at hafter hresult
      dsimp only at hresult
      unfold usable? at hskip
      cases hsource : (env.source.fetch s.disk track names).result with
      | error e =>
        obtain rfl : r = .error (.source e) := by rw [hresult, hsource]; rfl
        exact .failed track _ List.mem_cons_self (.inl ⟨e, hsource, rfl⟩)
      | ok found =>
        obtain rfl : r = .ok found := by rw [hresult, hsource]; rfl
        rcases found with _ | _ | ⟨value, values⟩
        · exact hskip hafter (by rw [hsource])
        · exact hskip hafter (by rw [hsource])
        · dsimp only
          rw [hafter.registry]
          cases hvector : inputVector s.engine.registry (value :: values) names with
          | error e =>
            exact .failed track _ List.mem_cons_self (.inr ⟨_, e, hsource, hvector, rfl⟩)
          | ok made =>
            cases made with
            | error m => exact hskip (hafter.warn _) (by rw [hsource]; dsimp only; rw [hvector])
            | ok v =>
              refine .cons hcalm hafter [(track, v)] ?_ (ih _ t)
              unfold usable?
              rw [hsource]
              dsimp only
              rw [hvector]
              rfl

end SoundAtlas.Engine
