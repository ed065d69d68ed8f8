import SoundAtlas.Proofs.Chains
import SoundAtlas.Proofs.Engine.Course
import SoundAtlas.Proofs.Index.Derived
import SoundAtlas.Proofs.Network.Watching

/-!
The stages of a load. Each of them leaves the load under way, but for the last one: that publishes
a model with its indices and its median, all at once, after the last look at whether loading has
been cancelled.
-/

namespace SoundAtlas

/-- All that is published belongs together: the network is trained, the indices are those of the
positions on it and of a catalog, and the median is that of the network. -/
structure Published.Complete (p : Published) (catalog : Catalog) : Prop where
  trained : p.model.network.state = .trained
  index : ModelIndex.build p.model.network.grid.width p.model.network.grid.height p.model.positions
    catalog ModelIndex.quiet () = (.ok (some p.index), ())
  median : p.median = p.model.network.medianNeighborDistance

namespace Engine

variable {env : Surroundings} {e : Engine} {d : Disk} {listed : Bool} {s t : Session} {m : Model}

lemma Underway.warn (h : Underway env e d listed s) (ws : List Warning) :
    Underway env e d listed (s.warn ws) :=
  ⟨⟨h.seen, h.flag⟩, h.alike, h.disk⟩

lemma underway_reportParams (h : Underway env e d listed s) (p : Params) :
    Underway env e d listed (reportParams env p s).2 := by
  unfold reportParams
  split
  · exact h
  · exact ⟨⟨h.seen, h.flag⟩, h.alike, h.disk⟩
  · exact h

/-- If loading has not been cancelled, nothing that has happened cancels it. -/
lemma Course.calm (h : Course env e listed s) (hs : s.isCancelled = false) :
    e.cancelRequested = false ∧ ∀ ev, Heard listed s ev → env.cancels ev = false := by
  have hnot := mt h.flag.2 (by simp [hs])
  rw [not_or] at hnot
  refine ⟨by simpa using hnot.1, fun ev hev => ?_⟩
  by_contra hc
  exact hnot.2 ⟨ev, hev, by simpa using hc⟩

/-! ### Samples -/

lemma underway_collect (h : Underway env e d listed s) (names : List FeatureName)
    (tracks : List Int) (samples : List Sample) :
    Underway env e d listed (collect env names tracks samples s).2 := by
  induction tracks generalizing samples s with
  | nil => exact h
  | cons track tracks ih =>
    have hf := h.fetch names track
    simp only [collect]
    split
    · exact h
    · split
      · rename_i heq
        rwa [heq] at hf
      · rename_i heq
        rw [heq] at hf
        exact ih hf samples
      · rename_i heq
        rw [heq] at hf
        exact ih hf samples
      · rename_i heq
        rw [heq] at hf
        split
        · exact hf
        · exact ih (hf.warn _) samples
        · exact ih hf _

lemma underway_collectSamples (h : Underway env e d false s) (names : List FeatureName) :
    Underway env e d true (collectSamples env names s).2 := by
  unfold collectSamples
  dsimp only
  split
  · exact h.list
  · exact underway_collect h.list names _ _

lemma scalableRows_ne_nil {t : Tensor} {rows : List (List Float)}
    (h : Feature.Scaling.scalableRows t = .ok rows) : rows ≠ [] := by
  unfold Feature.Scaling.scalableRows at h
  split at h
  · cases h
  · cases h
  · rename_i n k hpos _ hs
    split at h
    · cases h
    · cases h
      unfold Tensor.rows
      rw [hs]
      cases n with
      | zero => exact absurd rfl hpos
      | succ n => simp [Tensor.chunks]
  · cases h

lemma scaleTensor_eq_ok {scaling : Feature.Scaling} {t : Tensor} {scaled : List (List Float)}
    (h : scaling.scaleTensor t = .ok scaled) : ∃ rows factors,
      Feature.Scaling.scalableRows t = .ok rows ∧
        scaled = rows.map (Feature.Scaling.scaleRow factors) := by
  unfold Feature.Scaling.scaleTensor at h
  split at h
  · cases h
  · split at h
    · cases h
    · split at h
      · cases h
      · cases h
      · rename_i factors _
        cases hr : Feature.Scaling.scalableRows t with
        | error e =>
          rw [hr] at h
          cases h
        | ok rows =>
          rw [hr] at h
          exact ⟨rows, factors, rfl, (Except.ok.inj h).symm⟩

lemma scaleAll_eq_ok {scaling : Feature.Scaling} {samples : Except Tensor.Error Tensor}
    {scaled : List (List Float)} (h : scaling.scaleAll samples = .ok scaled) :
    ∃ t, samples = .ok t ∧ scaling.scaleTensor t = .ok scaled := by
  unfold Feature.Scaling.scaleAll at h
  split at h
  · cases h
  · cases h
  · exact ⟨_, rfl, h⟩

lemma scaleVectors_eq_ok {dimensions : Int} {vectors scaled : List (List Float)}
    (h : scaleVectors dimensions vectors = .ok scaled) : ∃ t rows factors,
      Tensor.ofRows vectors = .ok t ∧ Feature.Scaling.scalableRows t = .ok rows ∧
        scaled = rows.map (Feature.Scaling.scaleRow factors) := by
  unfold scaleVectors at h
  dsimp only at h
  split at h
  · cases h
  · rw [mapError_eq_ok] at h
    obtain ⟨t, ht, h⟩ := scaleAll_eq_ok h
    obtain ⟨rows, factors, hrows, hscaled⟩ := scaleTensor_eq_ok h
    exact ⟨t, rows, factors, ht, hrows, hscaled⟩

lemma scaleVectors_ne_nil {dimensions : Int} {vectors scaled : List (List Float)}
    (h : scaleVectors dimensions vectors = .ok scaled) : scaled ≠ [] := by
  obtain ⟨t, rows, factors, -, hrows, rfl⟩ := scaleVectors_eq_ok h
  simpa using scalableRows_ne_nil hrows

/-! ### Training -/

lemma underway_makeNetwork (h : Underway env e d listed s) (t : TrainSettings) (side : Nat)
    (dimensions : Int) : Underway env e d listed (makeNetwork env.room t side dimensions s).2 := by
  unfold makeNetwork
  split
  · exact h
  · dsimp only
    split
    · exact ⟨⟨h.seen, h.flag⟩, ⟨h.alike.settings, h.alike.published, h.alike.evictions⟩, h.disk⟩
    · exact ⟨⟨h.seen, h.flag⟩, ⟨h.alike.settings, h.alike.published, h.alike.evictions⟩, h.disk⟩

lemma underway_trainNetwork (h : Underway env e d listed s) (n : Network)
    (vectors : List (List Float)) (iterations : Int) :
    Underway env e d listed (trainNetwork env n vectors iterations s).2 := by
  have hw : Underway env e d listed (n.train (Tensor.ofRows vectors) iterations
      (trainingWatch env) s.engine.generator s).watcher :=
    Network.train_watcher (P := Underway env e d listed) (fun _ hs => hs)
      (fun k count _ hs => hs.announce k count) _ _ _ h
  unfold trainNetwork
  dsimp only
  split
  all_goals
    exact ⟨⟨hw.seen, hw.flag⟩, ⟨hw.alike.settings, hw.alike.published, hw.alike.evictions⟩, hw.disk⟩

/-- **Classifying only looks**, and if there are samples at all it looks at whether loading has been
cancelled. -/
lemma classify_eq (n : Network) (samples : List Sample) (ps : TrackPositions) :
    (classify n samples ps s).2 = s ∧
      (samples ≠ [] → (∃ positions, (classify n samples ps s).1 = .ok (some positions)) →
        s.isCancelled = false) := by
  induction samples generalizing ps with
  | nil => exact ⟨rfl, fun h => absurd rfl h⟩
  | cons sample rest ih =>
    obtain ⟨track, v⟩ := sample
    simp only [classify]
    split
    · exact ⟨rfl, by simp⟩
    · rename_i hc
      have hcalm : s.isCancelled = false := by simpa using hc
      split
      · exact ⟨rfl, by simp⟩
      · exact ⟨(ih _).1, fun _ _ => hcalm⟩

lemma contains_closestPosition {n : Network} {v : Except Tensor.Error Tensor} {p : Position}
    (h : n.closestPosition v = .ok p) : n.grid.Contains p := by
  unfold Network.closestPosition at h
  obtain ⟨_, -, h⟩ := bind_eq_ok.1 h
  obtain ⟨sample, -, h⟩ := bind_eq_ok.1 h
  obtain rfl : n.grid.position (n.closestCell sample) = p := Except.ok.inj h
  exact Grid.contains_position _

lemma holds_classify {n : Network} {rows : List Sample} {ps positions : TrackPositions}
    (hps : n.grid.Holds ps) (h : (classify n rows ps s).1 = .ok (some positions)) :
    n.grid.Holds positions := by
  induction rows generalizing ps with
  | nil =>
    obtain rfl : ps = positions := by simpa [classify] using h
    exact hps
  | cons row rows ih =>
    obtain ⟨track, v⟩ := row
    rw [classify] at h
    split at h
    · cases h
    · split at h
      · cases h
      · rename_i p hp
        refine ih (hps.insert track fun q hq => ?_) h
        rcases PositionSet.mem_insert.1 hq with rfl | hq
        · exact contains_closestPosition hp
        · exact hps track q hq

lemma holds_of_classify {n : Network} {rows : List Sample} {positions : TrackPositions}
    (h : (classify n rows ∅ s).1 = .ok (some positions)) : n.grid.Holds positions :=
  holds_classify (Grid.holds_empty _) h

/-! ### Publishing -/

/-- A load that has just published a model, with all that belongs to it. -/
structure Released (env : Surroundings) (e : Engine) (d : Disk) (listed : Bool) (m : Model)
    (s : Session) : Prop extends Course env e listed s where
  disk : s.disk = d
  settings : s.engine.settings = e.settings
  published : ∃ p, s.engine.published = some p ∧ p.model = m ∧ p.Complete env.catalog

/-- The report on a training that has published this model cannot be made. -/
def Unlogged (env : Surroundings) (m : Model) : Prop :=
  ∃ samples, env.tracker.metrics ⟨samples, m.network.medianNeighborDistance⟩ = .failed

/-- **Reporting on a model** changes nothing but what is remembered of the report, and fails only if
the tracker does. -/
lemma reportMetrics_spec (env : Surroundings) (metrics : Metrics) (s : Session) :
    (∃ x, (reportMetrics env metrics s).2 = { s with metrics := x }) ∧
      ((reportMetrics env metrics s).1 = .ok () ∨
        (reportMetrics env metrics s).1 = .error .tracker ∧
          env.tracker.metrics metrics = .failed) := by
  unfold reportMetrics
  split
  · exact ⟨⟨s.metrics, rfl⟩, Or.inl rfl⟩
  · exact ⟨⟨_, rfl⟩, Or.inl rfl⟩
  · rename_i h
    exact ⟨⟨s.metrics, rfl⟩, Or.inr ⟨rfl, h⟩⟩

lemma Released.of_published {m : Model} (h : Released env e d listed m s) {p : Published}
    (hp : s.engine.published = some p) : p.model = m ∧ p.Complete env.catalog := by
  obtain ⟨p', hp', hm, hcomplete⟩ := h.published
  obtain rfl : p' = p := Option.some.inj (hp'.symm.trans hp)
  exact ⟨hm, hcomplete⟩

/-- The last look-up comes after the last look at whether loading has been cancelled. -/
def BeforeLastPoll (s : Session) : Event → Prop
  | .listing => True
  | .fetch n => n < s.fetched.length
  | .progress k => ∃ count, (k, count) ∈ s.progress
  | .lookUp n => n + 1 < s.lookUps

/-- Loading was not cancelled before the load, and nothing has cancelled it before the last look at
that. -/
def Undisturbed (env : Surroundings) (e : Engine) (s : Session) : Prop :=
  e.cancelRequested = false ∧ ∀ ev, BeforeLastPoll s ev → env.cancels ev = false

structure Building (env : Surroundings) (e : Engine) (d : Disk) (listed : Bool) (s t : Session) :
    Prop extends Underway env e d listed t where
  fetched : t.fetched = s.fetched
  progress : t.progress = s.progress

lemma building_build (h : Underway env e d listed s) (rows : List (Int × PositionSet))
    (m : ModelIndex) :
    Building env e d listed s (ModelIndex.addTracks env.catalog (buildWatch env) rows m s).2 := by
  refine ModelIndex.addTracks_watcher (P := Building env e d listed s) (fun _ hw => hw)
    (fun w hw => ?_) ⟨h, rfl, rfl⟩
  refine ⟨hw.toUnderway.lookUp, ?_, ?_⟩
  · simpa [buildWatch] using hw.fetched
  · simpa [buildWatch] using hw.progress

/-- No look-up but the last one has cancelled the building of indices that have been built. -/
lemma lookUps_calm (h : Underway env e d listed s)
    (hprev : ∀ n, n + 1 < s.lookUps → env.cancels (.lookUp n) = false)
    (rows : List (Int × PositionSet)) (m index : ModelIndex)
    (hb : (ModelIndex.addTracks env.catalog (buildWatch env) rows m s).1 = .ok (some index)) :
    ∀ n, n + 1 < (ModelIndex.addTracks env.catalog (buildWatch env) rows m s).2.lookUps →
      env.cancels (.lookUp n) = false := by
  induction rows generalizing m s with
  | nil => exact hprev
  | cons row rest ih =>
    rw [ModelIndex.addTracks_cons] at hb ⊢
    split at hb
    · cases hb
    · rename_i hpoll
      rw [if_neg hpoll]
      have hcalm := (h.toCourse.calm (by simpa [buildWatch] using hpoll)).2
      cases hn : ModelIndex.withTrack env.catalog m row with
      | error err =>
        rw [hn] at hb
        cases hb
      | ok m' =>
        rw [hn] at hb
        refine ih h.lookUp (fun n hlt => hcalm (.lookUp n) ?_) m' hb
        have hlook : ((buildWatch env).lookUp s).lookUps = s.lookUps + 1 := rfl
        rw [hlook] at hlt
        exact Nat.lt_of_succ_lt_succ hlt

/-- **Publishing.** Either nothing is published, and it has been cancelled or failed; or a complete
model is, and nothing has cancelled it up to the last look at that. -/
lemma publish_spec (h : Underway env e d listed s) (m : Model) :
    ((publish env m s).1 ≠ .ok true ∧ Underway env e d listed (publish env m s).2) ∨
      ((publish env m s).1 = .ok true ∧ Released env e d listed m (publish env m s).2 ∧
        (listed = true → e.cancelRequested = false →
          (∀ ev, Heard listed s ev → env.cancels ev = false) →
          Undisturbed env e (publish env m s).2)) := by
  have hb := building_build h m.positions.toList
    (.empty m.network.grid.width m.network.grid.height)
  have hcalm := fun hprev => lookUps_calm h hprev m.positions.toList
    (.empty m.network.grid.width m.network.grid.height)
  unfold publish ModelIndex.build
  split
  · rename_i err t heq
    rw [heq] at hb
    exact Or.inl ⟨by simp, hb.toUnderway⟩
  · rename_i t heq
    rw [heq] at hb
    exact Or.inl ⟨by simp, hb.toUnderway⟩
  · rename_i index t heq
    rw [heq] at hb hcalm
    have hquiet := ModelIndex.addTracks_quiet (congrArg Prod.fst heq)
    refine Or.inr ⟨rfl, ⟨⟨hb.seen, hb.flag⟩, hb.disk, (alike_replies.1 hb.alike).1, _, rfl, rfl,
      m.trained, hquiet, rfl⟩, ?_⟩
    intro hlisted he hheard
    refine ⟨he, fun ev hev => ?_⟩
    cases ev with
    | listing => exact hheard .listing hlisted
    | fetch n =>
      have hn : n < s.fetched.length := by
        rw [← hb.fetched]
        exact hev
      exact hheard (.fetch n) hn
    | progress k =>
      have hk : ∃ count, (k, count) ∈ s.progress := by
        rw [← hb.progress]
        exact hev
      exact hheard (.progress k) hk
    | lookUp n =>
      exact hcalm (fun n hn => hheard (.lookUp n) (Nat.lt_of_succ_lt hn)) index rfl n hev

/-! ### One stage after the other -/

/-- The network that is made for samples, and the load when its training begins. -/
def prepare (env : Surroundings) (t : TrainSettings) (side : Nat) (dimensions : Int) (samples : Nat)
    (s : Session) : Except Fault Network × Session :=
  let made := makeNetwork env.room t side dimensions
    (if isFew samples t.perNeuron then s.warn [.fewTracks samples] else s)
  match made.1 with
  | .error e => (.error e, made.2)
  | .ok n =>
    let params : Params :=
      { side, dimensions := n.dimensions, iterations := t.iterations,
        perNeuron := t.perNeuron, features := Feature.orderedNames t.features.names }
    let reported := reportParams env params made.2
    (reported.1.map fun _ => n, reported.2)

lemma underway_prepare (h : Underway env e d listed s) (t : TrainSettings) (side : Nat)
    (dimensions : Int) (samples : Nat) :
    Underway env e d listed (prepare env t side dimensions samples s).2 := by
  have hwarned : Underway env e d listed
      (if isFew samples t.perNeuron then s.warn [.fewTracks samples] else s) := by
    split
    · exact h.warn _
    · exact h
  have hmade := underway_makeNetwork hwarned t side dimensions
  unfold prepare
  dsimp only
  split
  · exact hmade
  · exact underway_reportParams hmade _

/-- What is done with a network after its training: unless that was stopped, the tracks are given
their positions, and the model is published. -/
def conclude (env : Surroundings) (n : Network) (rows : List Sample) (samples : Nat) (s : Session) :
    Except Fault (Option Model) × Session :=
  if n.state = .aborted then (.ok none, s)
  else
    match classify n rows ∅ s with
    | (.error e, s) => (.error e, s)
    | (.ok none, s) => (.ok none, s)
    | (.ok (some positions), s) => publishTrained env n positions samples s

def concludeTrained (env : Surroundings) (rows : List Sample) (samples : Nat) :
    Except Fault Network × Session → Except Fault (Option Model) × Session
  | (.error e, s) => (.error e, s)
  | (.ok n, s) => conclude env n rows samples s

/-- Once the vectors are scaled and the size of the grid is found, a network is made, trained, and
what follows is done. -/
lemma trainOn_staged {t : TrainSettings} {dimensions : Int} {samples : List Sample}
    {vectors : List (List Float)} {side : ℕ}
    (hvectors : scaleVectors dimensions (samples.map (·.2)) = .ok vectors)
    (hside : Grid.sideFor samples.length t.perNeuron = .ok side) (env : Surroundings)
    (s : Session) :
    trainOn env t dimensions samples s =
      match prepare env t side dimensions samples.length s with
      | (.error e, s) => (.error e, s)
      | (.ok n, s) => concludeTrained env ((samples.map (·.1)).zip vectors) samples.length
          (trainNetwork env n vectors t.iterations s) := by
  unfold trainOn prepare
  rw [hvectors, hside]
  dsimp only
  obtain ⟨_ | n, u⟩ := makeNetwork env.room t side dimensions _
  · rfl
  · dsimp only
    obtain ⟨_ | ⟨⟨⟩⟩, v⟩ := reportParams env _ u <;> rfl

/-- **The stages of a training**: the vectors are scaled and the size of the grid is found, whatever
else the load has been through; then a network is made, trained, and what follows is done. -/
lemma trainOn_stages (t : TrainSettings) (dimensions : Int) (samples : List Sample) :
    (∃ f, ∀ env s, trainOn env t dimensions samples s = (.error f, s)) ∨
      ∃ vectors side, scaleVectors dimensions (samples.map (·.2)) = .ok vectors ∧
        Grid.sideFor samples.length t.perNeuron = .ok side ∧
        ∀ env s, trainOn env t dimensions samples s =
          match prepare env t side dimensions samples.length s with
          | (.error e, s) => (.error e, s)
          | (.ok n, s) => concludeTrained env ((samples.map (·.1)).zip vectors) samples.length
              (trainNetwork env n vectors t.iterations s) := by
  cases hvectors : scaleVectors dimensions (samples.map (·.2)) with
  | error e =>
    refine .inl ⟨e, fun env s => ?_⟩
    rw [trainOn, hvectors]
  | ok vectors =>
    cases hside : Grid.sideFor samples.length t.perNeuron with
    | error e =>
      refine .inl ⟨.size e, fun env s => ?_⟩
      rw [trainOn, hvectors, hside]
    | ok side => exact .inr ⟨vectors, side, rfl, rfl, trainOn_staged hvectors hside⟩

/-! ### A whole training -/

/-- A training is called off or fails, and nothing is published; or a complete model is that lies on
its grid, and nothing has cancelled it up to the last look at that. It can still fail then, if it
cannot be reported on. -/
inductive Trained (env : Surroundings) (e : Engine) (d : Disk) :
    Except Fault (Option Model) × Session → Prop where
  | calledOff (s : Session) (h : Underway env e d true s) : Trained env e d (.ok none, s)
  | failed (f : Fault) (s : Session) (h : Underway env e d true s) : Trained env e d (.error f, s)
  | released (m : Model) (s : Session) (h : Released env e d true m s) (hu : Undisturbed env e s)
    (hg : m.OnGrid) : Trained env e d (.ok (some m), s)
  | unlogged (m : Model) (s : Session) (h : Released env e d true m s) (hu : Undisturbed env e s)
    (hg : m.OnGrid) (hf : Unlogged env m) : Trained env e d (.error .tracker, s)

lemma onGrid_of_make {n : Network} {positions : TrackPositions} (hg : n.grid.Holds positions)
    (h : Model.make n positions = .ok m) : m.OnGrid := by
  unfold Model.make at h
  split at h
  · obtain rfl := Except.ok.inj h
    exact hg
  · cases h

lemma publishTrained_spec (h : Underway env e d true s) (hs : s.isCancelled = false) {n : Network}
    {positions : TrackPositions} (hn : n.grid.Holds positions) (samples : Nat) :
    Trained env e d (publishTrained env n positions samples s) := by
  obtain ⟨he, hheard⟩ := h.toCourse.calm hs
  unfold publishTrained
  split
  · exact .failed _ _ h
  · rename_i m hmake
    have hg := onGrid_of_make hn hmake
    have hp := publish_spec h m
    split
    · rename_i heq
      rw [heq] at hp
      obtain ⟨-, hu⟩ | ⟨hr, -⟩ := hp
      · exact .failed _ _ hu
      · cases hr
    · rename_i heq
      rw [heq] at hp
      obtain ⟨-, hu⟩ | ⟨hr, -⟩ := hp
      · exact .calledOff _ hu
      · cases hr
    · rename_i heq
      rw [heq] at hp
      obtain ⟨hr, -⟩ | ⟨-, hrel, hund⟩ := hp
      · exact absurd rfl hr
      · obtain ⟨he', hund⟩ := hund rfl he hheard
        rename_i s₁ _
        obtain ⟨⟨x, hx⟩, hcases⟩ := reportMetrics_spec env
          ⟨samples, m.network.medianNeighborDistance⟩ s₁
        have hrel₁ : Released env e d true m { s₁ with metrics := x } :=
          ⟨⟨hrel.seen, hrel.flag⟩, hrel.disk, hrel.settings, hrel.published⟩
        split <;> rename_i heq <;> rw [heq] at hx hcases <;> obtain rfl := hx
        · obtain hok | ⟨herror, hfailed⟩ := hcases
          · cases hok
          · cases herror
            exact .unlogged m _ hrel₁ ⟨he', hund⟩ hg ⟨samples, hfailed⟩
        · exact .released m _ hrel₁ ⟨he', hund⟩ hg

lemma zip_ne_nil {samples : List Sample} {vectors : List (List Float)} (hs : samples ≠ [])
    (hv : vectors ≠ []) : (samples.map (·.1)).zip vectors ≠ [] := by
  cases samples with
  | nil => exact absurd rfl hs
  | cons sample samples =>
    cases vectors with
    | nil => exact absurd rfl hv
    | cons v vectors => simp

/-- What training on samples comes to before a model is published: it is called off or fails, or the
samples are given their positions and nothing has cancelled it so far. -/
inductive Placed (env : Surroundings) (e : Engine) (d : Disk) (samples : Nat) :
    Except Fault (Option Model) × Session → Prop where
  | calledOff (s : Session) (h : Underway env e d true s) : Placed env e d samples (.ok none, s)
  | failed (f : Fault) (s : Session) (h : Underway env e d true s) :
    Placed env e d samples (.error f, s)
  | placed (n : Network) (rows : List Sample) (positions : TrackPositions) (s : Session)
    (h : Underway env e d true s) (hs : s.isCancelled = false)
    (hp : (classify n rows ∅ s).1 = .ok (some positions)) :
    Placed env e d samples (publishTrained env n positions samples s)

lemma conclude_placed (h : Underway env e d true s) (n : Network) {rows : List Sample}
    (hne : rows ≠ []) (samples : Nat) :
    Placed env e d samples (conclude env n rows samples s) := by
  obtain ⟨hsame, hcalm⟩ := classify_eq (s := s) n rows ∅
  unfold conclude
  split
  · exact .calledOff _ h
  · split
    · rename_i heq
      rw [heq] at hsame
      subst hsame
      exact .failed _ _ h
    · rename_i heq
      rw [heq] at hsame
      subst hsame
      exact .calledOff _ h
    · rename_i positions s' heq
      have hplaced := congrArg Prod.fst heq
      rw [heq] at hsame hcalm
      subst hsame
      -- there are rows, so there was a look before the first was classified
      exact .placed n _ positions _ h (hcalm hne ⟨positions, rfl⟩) hplaced

lemma trainOn_placed (h : Underway env e d true s) (t : TrainSettings) (dimensions : Int)
    (samples : List Sample) (hne : samples ≠ []) :
    Placed env e d samples.length (trainOn env t dimensions samples s) := by
  obtain ⟨f, hfault⟩ | ⟨vectors, side, hvectors, -, hstages⟩ := trainOn_stages t dimensions samples
  · rw [hfault]
    exact .failed _ _ h
  · have hbegun := underway_prepare h t side dimensions samples.length
    rw [hstages]
    generalize prepare env t side dimensions samples.length s = prepared at hbegun ⊢
    obtain ⟨_ | n, u⟩ := prepared
    · exact .failed _ _ hbegun
    · have htrained := underway_trainNetwork hbegun n vectors t.iterations
      dsimp only at htrained ⊢
      generalize trainNetwork env n vectors t.iterations u = trained at htrained ⊢
      obtain ⟨_ | n', v⟩ := trained
      · exact .failed _ _ htrained
      · exact conclude_placed htrained n' (zip_ne_nil hne (scaleVectors_ne_nil hvectors)) _

lemma trainOn_spec (h : Underway env e d true s) (t : TrainSettings) (dimensions : Int)
    (samples : List Sample) (hne : samples ≠ []) :
    Trained env e d (trainOn env t dimensions samples s) := by
  have hplaced := trainOn_placed h t dimensions samples hne
  generalize trainOn env t dimensions samples s = ended at hplaced ⊢
  cases hplaced with
  | calledOff s hu => exact .calledOff _ hu
  | failed f s hu => exact .failed _ _ hu
  | placed n rows positions s hu hs hp =>
    exact publishTrained_spec hu hs (holds_of_classify hp) _

inductive TrainingEnd (env : Surroundings) (e : Engine) (d : Disk) :
    Except Fault (Outcome × Option Model) × Session → Prop where
  | failed (f : Fault) (listed : Bool) (s : Session) (h : Underway env e d listed s) :
    TrainingEnd env e d (.error f, s)
  | calledOff (s : Session) (h : Underway env e d true s) :
    TrainingEnd env e d (.ok (.cancelled, none), s)
  | noData (s : Session) (h : Underway env e d true s) :
    TrainingEnd env e d (.ok (.noTrainableData, none), s)
  | released (m : Model) (s : Session) (h : Released env e d true m s) (hu : Undisturbed env e s)
    (hg : m.OnGrid) : TrainingEnd env e d (.ok (.trained, some m), s)
  | unlogged (m : Model) (s : Session) (h : Released env e d true m s) (hu : Undisturbed env e s)
    (hg : m.OnGrid) (hf : Unlogged env m) : TrainingEnd env e d (.error .tracker, s)

/-- **A training** publishes nothing, or a complete model if nothing has cancelled it up to the last
look at that. If it says that it has failed, nothing is published unless it is the report on the
model that could not be made. -/
lemma train_spec (h : Underway env e d false s) (t : TrainSettings) :
    TrainingEnd env e d (train env t s) := by
  unfold train
  extract_lets names
  split
  · exact .failed _ _ _ h
  · have hcollect := underway_collectSamples h names
    split
    · rename_i heq
      rw [heq] at hcollect
      exact .failed _ _ _ hcollect
    · rename_i heq
      rw [heq] at hcollect
      exact .calledOff _ hcollect
    · rename_i heq
      rw [heq] at hcollect
      exact .noData _ hcollect
    · rename_i dimensions _ _ samples s' hne heq
      rw [heq] at hcollect
      have hon := trainOn_spec hcollect t dimensions samples hne
      split <;> rename_i heq <;> rw [heq] at hon
      · obtain _ | ⟨_, _, hu⟩ | _ | ⟨m, _, hrel, hund, hg, hf⟩ := hon
        · exact .failed _ _ _ hu
        · exact .unlogged m _ hrel hund hg hf
      · obtain ⟨_, hu⟩ | _ | _ | _ := hon
        exact .calledOff _ hu
      · obtain _ | _ | ⟨_, _, hrel, hund, hg⟩ | _ := hon
        exact .released _ _ hrel hund hg

end Engine

end SoundAtlas
