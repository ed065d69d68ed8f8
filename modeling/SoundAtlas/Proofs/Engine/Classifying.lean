import SoundAtlas.Proofs.Engine.Usable

/-!
What a training classifies. Tracks and vectors travel side by side through scaling, training and
classification: the row that a usable track has among the scaled vectors is the one that its
position on the trained network is the closest to, and no other track is given a position.
-/

namespace SoundAtlas

/-! ### As many rows as vectors -/

lemma Tensor.length_chunks (width n : ℕ) (xs : List Float) :
    (Tensor.chunks width n xs).length = n := by
  induction n generalizing xs with
  | zero => rfl
  | succ n ih => rw [Tensor.chunks, List.length_cons, ih]

lemma Tensor.length_of_ofRows {rows : List (List Float)} {t : Tensor} {n m : ℕ}
    (h : Tensor.ofRows rows = .ok t) (hshape : t.shape = [n, m]) : rows.length = n := by
  cases rows with
  | nil =>
    obtain rfl := Except.ok.inj h
    simp [Tensor.ofList] at hshape
  | cons row rest =>
    rw [Tensor.ofRows] at h
    split at h
    · unfold Tensor.ofEntries at h
      split at h
      · obtain rfl := Except.ok.inj h
        exact (List.cons.inj hshape).1
      · cases h
    · cases h

lemma Feature.Scaling.length_of_scalableRows {t : Tensor} {rows : List (List Float)}
    (h : scalableRows t = .ok rows) : ∃ m, t.shape = [rows.length, m] := by
  unfold scalableRows at h
  split at h
  · cases h
  · cases h
  · rename_i n m _ _ hshape
    split at h
    · cases h
    · obtain rfl := Except.ok.inj h
      refine ⟨m, ?_⟩
      rw [Tensor.rows, hshape]
      dsimp only
      rw [Tensor.length_chunks]
  · cases h

namespace Engine

open Feature

lemma length_scaleVectors {dimensions : Int} {vectors scaled : List (List Float)}
    (h : scaleVectors dimensions vectors = .ok scaled) : scaled.length = vectors.length := by
  obtain ⟨t, rows, factors, ht, hrows, rfl⟩ := scaleVectors_eq_ok h
  obtain ⟨m, hshape⟩ := Scaling.length_of_scalableRows hrows
  rw [List.length_map, Tensor.length_of_ofRows ht hshape]

/-! ### Classification -/

variable {env : Surroundings} {s : Session} {m : Model}

/-- **What classification comes to**: the tracks that are classified are added to those that have
positions, each with the position closest to every vector of its own. -/
lemma classify_eq_ok {n : Network} {rows : List Sample} {ps positions : TrackPositions}
    (h : (classify n rows ps s).1 = .ok (some positions)) :
    (∀ row ∈ rows, ∃ p, n.closestPosition (.ok (.ofList row.2)) = .ok p) ∧
      (∀ track, track ∈ positions ↔ track ∈ ps ∨ ∃ row ∈ rows, row.1 = track) ∧
      ∀ track p, p ∈ positions.getD track ∅ ↔ p ∈ ps.getD track ∅ ∨
        ∃ row ∈ rows, row.1 = track ∧ n.closestPosition (.ok (.ofList row.2)) = .ok p := by
  induction rows generalizing ps with
  | nil =>
    obtain rfl : ps = positions := by simpa [classify] using h
    simp
  | cons row rows ih =>
    obtain ⟨track, v⟩ := row
    rw [classify] at h
    split at h
    · cases h
    · split at h
      · cases h
      · rename_i p hp
        obtain ⟨hclosest, hkeys, hpositions⟩ := ih h
        refine ⟨List.forall_mem_cons.2 ⟨⟨p, hp⟩, hclosest⟩, fun other => ?_, fun other q => ?_⟩
        · rw [hkeys, addPosition, Std.ExtTreeMap.mem_insert]
          simp only [List.exists_mem_cons_iff, Std.LawfulEqCmp.compare_eq_iff_eq]
          tauto
        · have hadd : q ∈ (addPosition ps track p).getD other ∅ ↔
              q ∈ ps.getD other ∅ ∨ (track = other ∧ p = q) := by
            rw [addPosition, Std.ExtTreeMap.getD_insert]
            by_cases htrack : track = other
            · subst htrack
              simp only [Std.LawfulEqCmp.compare_eq_iff_eq, if_true, true_and]
              rw [PositionSet.mem_insert]
              tauto
            · simp [htrack]
          rw [hpositions, hadd]
          simp only [List.exists_mem_cons_iff, hp, Except.ok.injEq]
          tauto

/-! ### The whole training -/

lemma grid_of_makeNetwork {room : ℕ} {t : TrainSettings} {side : ℕ} {dimensions : Int} {n : Network}
    (h : (makeNetwork room t side dimensions s).1 = .ok n) : n.grid = ⟨side, side⟩ := by
  unfold makeNetwork at h
  cases hshape : Network.Shape.check side side dimensions with
  | error e => simp [hshape] at h
  | ok shape =>
    obtain ⟨hwidth, hheight, -⟩ := Network.sizes_of_check hshape
    have hgrid : shape.grid = ⟨side, side⟩ :=
      congrArg₂ Grid.mk (Int.ofNat.inj hwidth) (Int.ofNat.inj hheight)
    rw [hshape] at h
    dsimp only at h
    split at h
    · cases h
    · rw [mapError_eq_ok] at h
      obtain ⟨-, w, -, -, rfl⟩ := Network.setWeights_eq_ok.1 h
      exact hgrid

lemma grid_of_prepare {t : TrainSettings} {side samples : ℕ} {dimensions : Int} {n : Network}
    (h : (prepare env t side dimensions samples s).1 = .ok n) : n.grid = ⟨side, side⟩ := by
  unfold prepare at h
  dsimp only at h
  split at h
  · cases h
  · rename_i made hmade
    rw [map_eq_ok] at h
    obtain ⟨-, -, rfl⟩ := h
    exact grid_of_makeNetwork hmade

lemma toShape_of_trainNetwork {n n' : Network} {vectors : List (List Float)} {iterations : Int}
    (h : (trainNetwork env n vectors iterations s).1 = .ok n') : n'.toShape = n.toShape := by
  unfold trainNetwork at h
  dsimp only at h
  split at h
  · cases h
  · cases h
  · obtain rfl := Except.ok.inj h
    exact Network.toShape_train _ _ _

lemma of_conclude {n : Network} {rows : List Sample} {samples : ℕ}
    (h : (conclude env n rows samples s).1 = .ok (some m)) :
    m.network = n ∧ (classify n rows ∅ s).1 = .ok (some m.positions) := by
  unfold conclude at h
  split at h
  · cases h
  · split at h
    · cases h
    · cases h
    · rename_i positions t heq
      obtain ⟨hnetwork, hpositions, -⟩ := publishTrained_eq_ok (Prod.ext h rfl)
      rw [heq, hpositions]
      exact ⟨hnetwork, rfl⟩

/-- **A training that comes to a model** has scaled the vectors of its samples, made a square grid
for so many, and classified each track by its own row. -/
lemma trainOn_eq_ok {t : TrainSettings} {dimensions : Int} {samples : List Sample}
    (h : (trainOn env t dimensions samples s).1 = .ok (some m)) :
    ∃ vectors side s', scaleVectors dimensions (samples.map (·.2)) = .ok vectors ∧
      Grid.sideFor samples.length t.perNeuron = .ok side ∧ m.network.grid = ⟨side, side⟩ ∧
      (classify m.network ((samples.map (·.1)).zip vectors) ∅ s').1 = .ok (some m.positions) := by
  obtain ⟨f, hfault⟩ | ⟨vectors, side, hvectors, hside, hstages⟩ :=
    trainOn_stages t dimensions samples
  · rw [hfault] at h
    cases h
  · rw [hstages] at h
    have hgrid {n : Network} : (prepare env t side dimensions samples.length s).1 = .ok n →
        n.grid = ⟨side, side⟩ := grid_of_prepare
    generalize prepare env t side dimensions samples.length s = prepared at h hgrid
    obtain ⟨_ | n, u⟩ := prepared
    · cases h
    · dsimp only at h
      have hshape {n' : Network} : (trainNetwork env n vectors t.iterations u).1 = .ok n' →
          n'.toShape = n.toShape := toShape_of_trainNetwork
      generalize trainNetwork env n vectors t.iterations u = trained at h hshape
      obtain ⟨_ | n', v⟩ := trained
      · cases h
      · obtain ⟨rfl, hclassified⟩ := of_conclude h
        exact ⟨vectors, side, v, hvectors, hside, by rw [hshape rfl, hgrid rfl], hclassified⟩

/-! ### Calls that train -/

variable {e : Engine} {d : Disk} {call : Call}

def Call.settings? (e : Engine) : Call → Option TrainSettings
  | .load _ => (TrainSettings.ofSettings e.settings e.defaults).toOption
  | .training t => some t
  | .cached _ => none

/-- A call goes on to train: it asks for that, or there is no model in a cache. -/
inductive Call.GoesOn (env : Surroundings) (d : Disk) : Call → Prop where
  | asked (t : TrainSettings) : GoesOn env d (.training t)
  | uncached (force : Bool) (hc : env.cache = none) : GoesOn env d (.load force)
  | cleared (c : ModelCache) (hc : env.cache = some c) (h : (c.invalidate d).1 = .ok ()) :
    GoesOn env d (.load true)
  | missed (c : ModelCache) (hc : env.cache = some c) (h : (c.read d).1 = .ok none) :
    GoesOn env d (.load false)

def Call.train (env : Surroundings) (s : Session) : Call → Except Fault Outcome × Session
  | .training t => loadFromTraining env t s
  | .load _ | .cached _ => loadByTraining env s

/-- **A call that goes on to train** has done nothing yet but clear its cache. -/
lemma Call.GoesOn.run (h : call.GoesOn env d) (e : Engine) :
    ∃ s, call.run env (Session.start e d) = call.train env s ∧ s.engine = e ∧
      Underway env e (clearedDisk env call d) false s ∧ s.fetched = [] := by
  have hstart := underway_start env e d
  have hdisk : (Session.start e d).disk = d := rfl
  cases h with
  | asked t => exact ⟨Session.start e d, rfl, rfl, hstart, rfl⟩
  | uncached force hc =>
    refine ⟨Session.start e d, ?_, rfl, ?_, rfl⟩
    · unfold Call.run Engine.load
      rw [hc]
      cases force <;> rfl
    · unfold clearedDisk
      rw [hc]
      cases force <;> exact hstart
  | cleared c hc h =>
    refine ⟨{ Session.start e d with disk := (c.invalidate d).2 }, ?_, rfl, ?_, rfl⟩
    · unfold Call.run Engine.load
      rw [hc]
      dsimp only
      rw [hdisk, h]
      rfl
    · unfold clearedDisk
      rw [hc]
      exact hstart.onDisk _
  | missed c hc h =>
    refine ⟨(Session.start e d).warn ((c.read d).2.map .cache), ?_, rfl, ?_, rfl⟩
    · unfold Call.run Engine.load
      rw [hc]
      dsimp only
      rw [hdisk, h]
      rfl
    · unfold clearedDisk
      rw [hc]
      exact hstart.warn _

lemma goesOn_of_adoptee (hgiven : adoptee env call d = none) {o : Outcome}
    (hr : (call.run env (Session.start e d)).1 = .ok o) : call.GoesOn env d := by
  have hdisk : (Session.start e d).disk = d := rfl
  cases call with
  | training t => exact .asked t
  | cached m => exact absurd hgiven (Option.some_ne_none m)
  | load force =>
    unfold adoptee at hgiven
    unfold Call.run Engine.load at hr
    cases hc : env.cache with
    | none => exact .uncached force hc
    | some c =>
      rw [hc] at hgiven hr
      cases force with
      | true =>
        dsimp only at hr
        rw [hdisk] at hr
        cases hcleared : (c.invalidate d).1 with
        | error err => simp [hcleared] at hr
        | ok => exact .cleared c hc hcleared
      | false =>
        dsimp only at hgiven hr
        rw [hdisk] at hr
        cases hread : (c.read d).1 with
        | error err => simp [hread] at hr
        | ok found =>
          rw [hread] at hgiven
          obtain rfl : found = none := hgiven
          exact .missed c hc hread

lemma disk_train (hu : Underway env e d false s) (t : TrainSettings) :
    (Engine.train env t s).2.disk = d := by
  have hended := train_spec hu t
  generalize Engine.train env t s = ended at hended ⊢
  cases hended with
  | failed _ _ _ h => exact h.disk
  | calledOff _ h => exact h.disk
  | noData _ h => exact h.disk
  | released _ _ h => exact h.disk
  | unlogged _ _ h => exact h.disk

/-- How a call ends in which there has been a training on the disk `d`: as that has ended, unless
the cache refuses the model. -/
inductive Concluded (env : Surroundings) (call : Call) (d : Disk) :
    Except Fault (Outcome × Option Model) × Session → Except Fault Outcome × Session → Prop where
  | failed (f : Fault) (s : Session) : Concluded env call d (.error f, s) (.error f, s)
  | ended (o : Outcome) (model : Option Model) (s s' : Session) (h : s'.engine = s.engine) :
    Concluded env call d (.ok (o, model), s) (.ok o, s')
  | unwritten (o : Outcome) (m : Model) (s : Session) (r : Except Fault Outcome) (s' : Session)
    (hr : FailsLate env call d m r) (h : s'.engine = s.engine) :
    Concluded env call d (.ok (o, some m), s) (r, s')

lemma Concluded.engine {result : Except Fault (Outcome × Option Model) × Session}
    {ended : Except Fault Outcome × Session} (h : Concluded env call d result ended) :
    ended.2.engine = result.2.engine := by
  cases h with
  | failed => rfl
  | ended _ _ _ _ hengine => exact hengine
  | unwritten _ _ _ _ _ _ hengine => exact hengine

lemma concluded_loadFromTraining (env : Surroundings) (d : Disk) (t : TrainSettings) (s : Session) :
    Concluded env (.training t) d (Engine.train env t s) (loadFromTraining env t s) := by
  unfold loadFromTraining
  rcases Engine.train env t s with ⟨f | ⟨o, model⟩, s'⟩
  · exact .failed f s'
  · exact .ended o model s' s' rfl

lemma concluded_loadByTraining (hu : Underway env e d false s) {t : TrainSettings}
    (ht : TrainSettings.ofSettings s.engine.settings s.engine.defaults = .ok t) (force : Bool) :
    Concluded env (.load force) d (Engine.train env t s) (loadByTraining env s) := by
  have hdisk := disk_train hu t
  unfold loadByTraining
  rw [ht]
  dsimp only
  generalize Engine.train env t s = trained at hdisk ⊢
  obtain ⟨f | ⟨o, _ | m⟩, s'⟩ := trained
  · exact .failed f s'
  · exact .ended o none s' s' rfl
  · cases hc : env.cache with
    | none => exact .ended o (some m) s' s' rfl
    | some c =>
      dsimp only
      have hengine := engine_store env c m s'
      rcases hstored : store env c m s' with ⟨err | ⟨⟩, s''⟩
      · rw [hstored] at hengine
        refine .unwritten o m s' _ s'' ?_ hengine
        have hresult := congrArg Prod.fst hstored
        unfold store at hresult
        dsimp only at hresult
        cases hwrite : (c.write s'.disk m env.names).1.1 with
        | ok => simp [hwrite] at hresult
        | error err' =>
          rw [hwrite] at hresult
          dsimp only at hresult
          split at hresult
          · cases hresult
          · rename_i hwarned
            obtain rfl := Except.error.inj hresult
            obtain rfl : s'.disk = d := hdisk
            exact .unwritten rfl hc hwrite
              (ModelCache.refused_of_write hwrite (badName_of_not_warned (by simpa using hwarned)))
      · rw [hstored] at hengine
        exact .ended o (some m) s' s'' hengine

/-- **A call that goes on to train** has no valid settings, or ends as its training does. -/
lemma Call.GoesOn.concluded {d' : Disk} (h : call.GoesOn env d') (hu : Underway env e d false s) :
    (∃ err, TrainSettings.ofSettings s.engine.settings s.engine.defaults = .error err ∧
      call.settings? s.engine = none ∧ call.train env s = (.error (.settings err), s)) ∨
    ∃ t, call.settings? s.engine = some t ∧
      Concluded env call d (Engine.train env t s) (call.train env s) := by
  have hload (force : Bool) : (∃ err,
      TrainSettings.ofSettings s.engine.settings s.engine.defaults = .error err ∧
        (Call.load force).settings? s.engine = none ∧
          (Call.load force).train env s = (.error (.settings err), s)) ∨
      ∃ t, (Call.load force).settings? s.engine = some t ∧
        Concluded env (.load force) d (Engine.train env t s) ((Call.load force).train env s) := by
    cases hsettings : TrainSettings.ofSettings s.engine.settings s.engine.defaults with
    | error err =>
      refine .inl ⟨err, rfl, ?_, ?_⟩
      · rw [Call.settings?, hsettings]
        rfl
      · rw [Call.train, loadByTraining, hsettings]
    | ok t =>
      refine .inr ⟨t, ?_, concluded_loadByTraining hu hsettings force⟩
      rw [Call.settings?, hsettings]
      rfl
  cases h with
  | asked t => exact .inr ⟨t, rfl, concluded_loadFromTraining env d t s⟩
  | uncached force => exact hload force
  | cleared => exact hload true
  | missed => exact hload false

/-- **A call that returns and has no model to adopt** has been through a training. -/
lemma Call.exists_train (hgiven : adoptee env call d = none) {o : Outcome}
    (ho : (call.run env (Session.start e d)).1 = .ok o) :
    ∃ t s model, call.settings? e = some t ∧ s.engine = e ∧ s.disk = clearedDisk env call d ∧
      s.fetched = [] ∧ (Engine.train env t s).1 = .ok (o, model) ∧
      (call.run env (Session.start e d)).2.engine = (Engine.train env t s).2.engine := by
  have hgoes := goesOn_of_adoptee hgiven ho
  obtain ⟨s, hrun, rfl, hunderway, hfetched⟩ := hgoes.run e
  rw [hrun] at ho ⊢
  obtain ⟨err, -, -, hinvalid⟩ | ⟨t, ht, hconcluded⟩ := hgoes.concluded hunderway
  · rw [hinvalid] at ho
    cases ho
  · refine ⟨t, s, ?_⟩
    rw [hconcluded.engine]
    generalize Engine.train env t s = trained at hconcluded ⊢
    generalize call.train env s = concluded at hconcluded ho
    cases hconcluded with
    | failed => cases ho
    | ended o' model =>
      obtain rfl := Except.ok.inj ho
      exact ⟨model, ht, rfl, hunderway.disk, hfetched, rfl, rfl⟩
    | unwritten o' m s₁ r s₂ hr =>
      obtain rfl : r = .ok o := ho
      cases hr

lemma adoptee_of_trained (ho : (call.run env (Session.start e d)).1 = .ok .trained) :
    adoptee env call d = none := by
  have hend := run_end env call e d
  cases hgiven : adoptee env call d with
  | none => rfl
  | some m =>
    rw [hgiven] at hend
    obtain ⟨(h | h | ⟨f, h⟩), -⟩ | ⟨h, -⟩ := hend.of_given <;> cases ho.symm.trans h

/-! ### What is classified -/

/-- A model classifies samples by the rows that stand for them: it has the tracks of the samples and
no others, and each of them in the one cell that is the closest to its row. -/
structure Classifies (m : Model) (samples : List Sample) (rows : List (List Float)) : Prop where
  length : rows.length = samples.length
  tracks : ∀ track, track ∈ m.positions ↔ track ∈ samples.map (·.1)
  position : ∀ (i : ℕ) (x : Sample) (row : List Float), samples[i]? = some x → rows[i]? = some row →
    ∃ p, m.network.closestPosition (.ok (.ofList row)) = .ok p ∧ m.network.grid.Contains p ∧
      m.positions[x.1]? = some {p}

lemma classifies_of_classify {samples : List Sample} {rows : List (List Float)}
    (hlength : rows.length = samples.length) (hdistinct : (samples.map (·.1)).Nodup)
    (h : (classify m.network ((samples.map (·.1)).zip rows) ∅ s).1 = .ok (some m.positions)) :
    Classifies m samples rows := by
  obtain ⟨hclosest, hkeys, hpositions⟩ := classify_eq_ok h
  have hfst : ((samples.map (·.1)).zip rows).map (·.1) = samples.map (·.1) :=
    List.map_fst_zip (by rw [List.length_map, hlength])
  have htracks : ∀ track, track ∈ m.positions ↔ track ∈ samples.map (·.1) := by
    intro track
    rw [hkeys]
    nth_rewrite 2 [← hfst]
    rw [List.mem_map]
    simp [Std.ExtTreeMap.not_mem_empty]
  refine ⟨hlength, htracks, fun i x row hx hrow => ?_⟩
  have hzip : ((samples.map (·.1)).zip rows)[i]? = some (x.1, row) := by
    rw [List.getElem?_zip_eq_some, List.getElem?_map, hx]
    exact ⟨rfl, hrow⟩
  have hmem := List.mem_of_getElem? hzip
  obtain ⟨p, hp⟩ := hclosest _ hmem
  -- no other row is that of the track
  have honly : ∀ other ∈ (samples.map (·.1)).zip rows, other.1 = x.1 → other = (x.1, row) := by
    intro other hother htrack
    exact List.inj_on_of_nodup_map (by rw [hfst]; exact hdistinct) hother hmem htrack
  have hset : m.positions.getD x.1 ∅ = {p} := by
    refine PositionSet.ext fun q => ?_
    rw [hpositions, Std.ExtTreeMap.getD_empty, PositionSet.mem_singleton]
    constructor
    · rintro (hq | ⟨other, hother, htrack, hq⟩)
      · exact absurd hq Std.ExtTreeSet.not_mem_empty
      · obtain rfl := honly other hother htrack
        exact Except.ok.inj (hq.symm.trans hp)
    · rintro rfl
      exact .inr ⟨_, hmem, rfl, hp⟩
  have htrack : x.1 ∈ m.positions :=
    (htracks x.1).2 (List.mem_map_of_mem (List.mem_of_getElem? hx))
  refine ⟨p, hp, contains_closestPosition hp, ?_⟩
  rw [← hset, Std.ExtTreeMap.getD_eq_getD_getElem?, Std.ExtTreeMap.getElem?_eq_some_getElem htrack,
    Option.getD_some]

/-- The samples of the usable tracks, when a call trains with given settings. -/
def Call.samples (env : Surroundings) (call : Call) (e : Engine) (d : Disk) (t : TrainSettings)
    (tracks : List Int) : List Sample :=
  usableSamples env.source e.registry (clearedDisk env call d)
    (orderedNames t.features.names) tracks

/-- At the question before the `k`th track, loading has been cancelled. -/
def CancelledAt (env : Surroundings) (e : Engine) (k : ℕ) : Prop :=
  e.cancelRequested = true ∨ env.cancels .listing = true ∨ ∃ j < k, env.cancels (.fetch j) = true

lemma collected_of_begun {tracks : List Int} (htracks : env.listed.trackIds = .ok tracks)
    (names : List FeatureName) (hengine : s.engine = e) (hfetched : s.fetched = []) :
    ((∃ k < tracks.length, CancelledAt env e k) ∧ (collectSamples env names s).1 = .ok none) ∨
      (∃ track ∈ tracks, ∃ f, FailsAt env.source e.registry s.disk names track f ∧
        (collectSamples env names s).1 = .error f) ∨
      (∀ k < tracks.length, ¬ CancelledAt env e k) ∧ (collectSamples env names s).1 =
        .ok (some (usableSamples env.source e.registry s.disk names tracks)) := by
  obtain ⟨c, hmeet⟩ : ∃ c, (s.meet env .listing).engine = { s.engine with token := c } :=
    engine_meet .listing
  have hregistry : (s.meet env .listing).engine.registry = e.registry := by rw [hmeet, hengine]
  have hcancelled (k : ℕ) : CancelledBy env (s.meet env .listing) k ↔ CancelledAt env e k := by
    unfold CancelledBy CancelledAt
    rw [isCancelled_meet, fetched_meet, hfetched, Session.isCancelled, hengine, or_assoc]
    simp
  have hcollected := collected_collect env names tracks [] (s.meet env .listing)
  have hcollect : collectSamples env names s = collect env names tracks []
      (s.meet env .listing) := by
    unfold collectSamples
    rw [htracks]
  rw [hcollect]
  generalize (collect env names tracks [] (s.meet env .listing)).1 = r at hcollected
  cases hcollected with
  | cancelled k hk h => exact .inl ⟨⟨k, hk, (hcancelled k).1 h⟩, rfl⟩
  | failed track f htrack h =>
    rw [hregistry, disk_meet] at h
    exact .inr (.inl ⟨track, htrack, f, h, rfl⟩)
  | done h =>
    rw [hregistry, disk_meet]
    exact .inr (.inr ⟨fun k hk => mt (hcancelled k).2 (h k hk), rfl⟩)

lemma attemptAt?_eq_some {t : TrainSettings} {x : Attempt} (h : attemptAt? env t s = some x) :
    x.env = env ∧ x.settings = t ∧
      totalDimensions s.engine.registry (orderedNames t.features.names) = .ok x.dimensions ∧
      collectSamples env (orderedNames t.features.names) s = (.ok (some x.samples), x.session) := by
  unfold attemptAt? at h
  dsimp only at h
  split at h
  · rename_i hdimensions hcollected
    obtain rfl := Option.some.inj h
    exact ⟨rfl, rfl, hdimensions, hcollected⟩
  · cases h

/-- **A training that says so** has come to a model of its samples. -/
lemma train_eq_trained {t : TrainSettings} {model : Option Model}
    (h : (Engine.train env t s).1 = .ok (.trained, model)) :
    ∃ dimensions samples s' m,
      totalDimensions s.engine.registry (orderedNames t.features.names) = .ok dimensions ∧
      (collectSamples env (orderedNames t.features.names) s).1 = .ok (some samples) ∧
      (trainOn env t dimensions samples s').1 = .ok (some m) ∧
      (Engine.train env t s).2.engine.model? = some m := by
  obtain ⟨x, hx, -, htrain⟩ | ⟨-, -, hnot⟩ := train_cases env t s
  · obtain ⟨rfl, rfl, hdimensions, hcollected⟩ := attemptAt?_eq_some hx
    rw [htrain] at h
    obtain hcancelled | ⟨-, m, hm⟩ := Attempt.of_outcome h
    · cases hcancelled
    · refine ⟨x.dimensions, x.samples, x.session, m, hdimensions, by rw [hcollected], hm, ?_⟩
      rw [htrain, x.engine_outcome]
      exact model_of_trainOn hm
  · exact absurd rfl (hnot _ _ h).1

/-- **There is nothing to train on** if all tracks have been asked for and none is usable. -/
lemma train_noTrainableData {t : TrainSettings} {o : Outcome} {model : Option Model}
    (h : (Engine.train env t s).1 = .ok (o, model)) :
    ∃ found, (collectSamples env (orderedNames t.features.names) s).1 = .ok found ∧
      (o = .noTrainableData ↔ found = some []) := by
  unfold Engine.train at h
  dsimp only at h
  split at h
  · cases h
  · generalize collectSamples env (orderedNames t.features.names) s = collected at h ⊢
    obtain ⟨_ | _ | _ | ⟨x, xs⟩, s'⟩ := collected
    · cases h
    · cases h
      exact ⟨none, rfl, by simp⟩
    · cases h
      exact ⟨some [], rfl, by simp⟩
    · refine ⟨some (x :: xs), rfl, ?_⟩
      dsimp only at h
      split at h <;> cases h <;> simp

/-- **A training classifies the usable tracks.** If a call says that it has trained, it has taken
the vectors of the tracks that are usable, in the order of the catalog, has scaled them, and has
made a square grid for so many; its model has these tracks and no others, each in the cell that is
closest to its own row of the scaled vectors. A call that returns without taking a model from a
cache says that there was nothing to train on if there is no usable track and it was not cancelled
at any question before a track. -/
theorem training_classifies_usable (env : Surroundings) (call : Call) (e : Engine) (d : Disk)
    {tracks : List Int} (htracks : env.listed.trackIds = .ok tracks) (hdistinct : tracks.Nodup) :
    let ended := call.run env (Session.start e d)
    (ended.1 = .ok .trained → ∃ t dimensions rows side m, call.settings? e = some t ∧
      totalDimensions e.registry (orderedNames t.features.names) = .ok dimensions ∧
      scaleVectors dimensions ((call.samples env e d t tracks).map (·.2)) = .ok rows ∧
      Grid.sideFor (call.samples env e d t tracks).length t.perNeuron = .ok side ∧
      ended.2.engine.model? = some m ∧ m.network.grid = ⟨side, side⟩ ∧
      Classifies m (call.samples env e d t tracks) rows) ∧
    ∀ o, adoptee env call d = none → ended.1 = .ok o → ∃ t, call.settings? e = some t ∧
      (o = .noTrainableData ↔ call.samples env e d t tracks = [] ∧
        ∀ k < tracks.length, ¬ CancelledAt env e k) := by
  intro ended
  constructor
  · intro ho
    obtain ⟨t, s, model, ht, hengine, hdisk, hfetched, htrained, hsame⟩ :=
      Call.exists_train (adoptee_of_trained ho) ho
    obtain ⟨dimensions, samples, s', m, hdimensions, hcollected, hm, hpublished⟩ :=
      train_eq_trained htrained
    obtain ⟨-, hnone⟩ | ⟨_, -, f, -, hfailed⟩ | ⟨-, hall⟩ :=
      collected_of_begun htracks (orderedNames t.features.names) hengine hfetched
    · simp [hnone] at hcollected
    · simp [hfailed] at hcollected
    · rw [hcollected, hdisk] at hall
      obtain rfl : samples = call.samples env e d t tracks :=
        Option.some.inj (Except.ok.inj hall)
      obtain ⟨rows, side, s'', hrows, hside, hgrid, hclassified⟩ := trainOn_eq_ok hm
      rw [hengine] at hdimensions
      refine ⟨t, dimensions, rows, side, m, ht, hdimensions, hrows, hside,
        hsame ▸ hpublished, hgrid,
        classifies_of_classify ?_ ?_ hclassified⟩
      · rw [length_scaleVectors hrows, List.length_map]
      · exact (sublist_usableSamples _ _ _ _ _).nodup hdistinct
  · intro o hgiven ho
    obtain ⟨t, s, model, ht, hengine, hdisk, hfetched, htrained, -⟩ := Call.exists_train hgiven ho
    obtain ⟨found, hfound, hnothing⟩ := train_noTrainableData htrained
    refine ⟨t, ht, hnothing.trans ?_⟩
    obtain ⟨⟨k, hk, hby⟩, hnone⟩ | ⟨_, -, f, -, hfailed⟩ | ⟨hcalm, hall⟩ :=
      collected_of_begun htracks (orderedNames t.features.names) hengine hfetched
    · obtain rfl : none = found := Except.ok.inj (hnone.symm.trans hfound)
      exact ⟨nofun, fun h => absurd hby (h.2 k hk)⟩
    · cases hfailed.symm.trans hfound
    · obtain rfl := Except.ok.inj (hall.symm.trans hfound)
      rw [Option.some.injEq, hdisk]
      exact ⟨fun h => ⟨h, hcalm⟩, fun h => h.1⟩

/-- Two of four tracks are usable; the others are not in the model. -/
theorem training_classifies_usable_mixed :
    (mixedSurroundings none).listed.trackIds = .ok [3, 7, 9, 8] ∧ [(3 : Int), 7, 9, 8].Nodup ∧
      ∃ t m, (Call.training soloTraining).run (mixedSurroundings none)
          (Session.start soloEngine Disk.empty) =
          (.ok .trained, t) ∧ t.engine.model? = some m ∧ m.network.grid = ⟨2, 2⟩ ∧
        Classifies m [(7, [1.0]), (8, [2.0])] mixedVectors ∧ 3 ∉ m.positions ∧ 9 ∉ m.positions := by
  have hdistinct : [(3 : Int), 7, 9, 8].Nodup := by decide
  have hrun : ((Call.training soloTraining).run (mixedSurroundings none)
      (Session.start soloEngine Disk.empty)).1 = .ok .trained := by
    obtain ⟨m, s, htrain, -⟩ := train_mixed none (e := soloEngine) rfl rfl rfl
    change (loadFromTraining _ soloTraining _).1 = _
    rw [loadFromTraining, htrain]
  obtain ⟨hclassifies, -⟩ :=
    training_classifies_usable (mixedSurroundings none) (.training soloTraining)
    soloEngine Disk.empty rfl hdistinct
  obtain ⟨ts, dimensions, rows, side, m, hts, hdimensions, hscaled, hside, hm, hgrid, hrows⟩ :=
    hclassifies hrun
  obtain rfl : soloTraining = ts := Option.some.inj hts
  have hone : totalDimensions soloEngine.registry (orderedNames soloTraining.features.names) =
      .ok 1 := rfl
  obtain rfl : 1 = dimensions := Except.ok.inj (hone.symm.trans hdimensions)
  have hsamples : (Call.training soloTraining).samples (mixedSurroundings none) soloEngine
    Disk.empty
      soloTraining [3, 7, 9, 8] = mixedSamples := rfl
  rw [hsamples] at hscaled hside hrows
  have hvectors : scaleVectors 1 (mixedSamples.map (·.2)) = .ok mixedVectors := rfl
  obtain rfl : mixedVectors = rows := Except.ok.inj (hvectors.symm.trans hscaled)
  have htwo : Grid.sideFor mixedSamples.length soloTraining.perNeuron = .ok 2 := by decide +kernel
  obtain rfl : 2 = side := Except.ok.inj (htwo.symm.trans hside)
  refine ⟨rfl, hdistinct, _, m, Prod.ext hrun rfl, hm, hgrid, hrows, ?_, ?_⟩ <;>
    simp [hrows.tracks, mixedSamples]

end Engine

end SoundAtlas
