import SoundAtlas.Proofs.Engine.Histories

/-!
What a training comes to. Nothing but training draws on the generator of an engine; and two
trainings on the same samples, with the same settings and the generator in the same state, come to
the same model and leave the generator in the same state, whatever else the engines have been
through, whoever listens and whatever is asked meanwhile.
-/

namespace SoundAtlas.Engine

variable {env env' : Surroundings} {s s' : Session} {m : Model} {ev : Event}

/-! ### What leaves the engine as it is -/

lemma engine_meet (ev : Event) :
    ∃ c, (s.meet env ev).engine = { s.engine with token := c } := by
  unfold Session.meet
  split
  · exact ⟨s.engine.token.cancel, rfl⟩
  · exact ⟨s.engine.token, rfl⟩

lemma engine_fetch (env : Surroundings) (names : List FeatureName) (track : Int) (s : Session) :
    ∃ c, (fetch env names track s).2.engine = { s.engine with token := c } :=
  engine_meet _

lemma engine_collect (env : Surroundings) (names : List FeatureName) (tracks : List Int)
    (samples : List Sample) (s : Session) :
    ∃ c, (collect env names tracks samples s).2.engine = { s.engine with token := c } := by
  induction tracks generalizing samples s with
  | nil => exact ⟨s.engine.token, rfl⟩
  | cons track tracks ih =>
    obtain ⟨c, hc⟩ := engine_fetch env names track s
    have hrest {t : Session} {samples : List Sample}
        (ht : t.engine = { s.engine with token := c }) :
        ∃ c', (collect env names tracks samples t).2.engine =
          { s.engine with token := c' } := by
      obtain ⟨c', hc'⟩ := ih samples t
      exact ⟨c', by rw [hc', ht]⟩
    rw [collect]
    split
    · exact ⟨s.engine.token, rfl⟩
    · split <;> rename_i heq <;> rw [heq] at hc
      · exact ⟨c, hc⟩
      · exact hrest hc
      · exact hrest hc
      · split
        · exact ⟨c, hc⟩
        · exact hrest hc
        · exact hrest hc

/-- Collecting changes nothing of the engine but whether loading has been cancelled. -/
lemma engine_collectSamples (env : Surroundings) (names : List FeatureName) (s : Session) :
    ∃ c, (collectSamples env names s).2.engine = { s.engine with token := c } := by
  obtain ⟨c, hmeet⟩ : ∃ c, (s.meet env .listing).engine = { s.engine with token := c } :=
    engine_meet .listing
  unfold collectSamples
  dsimp only
  split
  · exact ⟨c, hmeet⟩
  · rename_i tracks _
    obtain ⟨c', hcollect⟩ := engine_collect env names tracks [] (s.meet env .listing)
    exact ⟨c', by rw [hcollect, hmeet]⟩

lemma generator_collectSamples (env : Surroundings) (names : List FeatureName) (s : Session) :
    (collectSamples env names s).2.engine.generator = s.engine.generator := by
  obtain ⟨c, h⟩ := engine_collectSamples env names s
  rw [h]

/-- Publishing changes nothing of the engine but what is published, and whether loading has been
cancelled. -/
lemma engine_publish (env : Surroundings) (m : Model) (s : Session) :
    ∃ c p, (publish env m s).2.engine = { s.engine with token := c, published := p } := by
  have hbuilt : ∃ c, (ModelIndex.addTracks env.catalog (buildWatch env) m.positions.toList
      (.empty m.network.grid.width m.network.grid.height) s).2.engine =
        { s.engine with token := c } := by
    refine ModelIndex.addTracks_watcher
      (P := fun t : Session => ∃ c, t.engine = { s.engine with token := c })
      (fun _ h => h) (fun t ⟨c, hc⟩ => ?_) ⟨_, rfl⟩
    obtain ⟨c', hc'⟩ := engine_meet (s := t) (.lookUp t.lookUps)
    exact ⟨c', hc'.trans (by rw [hc])⟩
  unfold publish ModelIndex.build
  split <;> rename_i heq <;> rw [heq] at hbuilt <;> obtain ⟨c, hc⟩ := hbuilt
  · exact ⟨c, _, hc⟩
  · exact ⟨c, _, hc⟩
  · exact ⟨c, _, by rw [hc]⟩

lemma engine_adopt (env : Surroundings) (m : Model) (s : Session) :
    ∃ c p, (adopt env m s).2.engine = { s.engine with token := c, published := p } := by
  have hpublished := engine_publish env m s
  unfold adopt
  split <;> rename_i heq <;> rw [heq] at hpublished <;> exact hpublished

lemma engine_publishTrained (env : Surroundings) (n : Network) (positions : TrackPositions)
    (samples : Nat) (s : Session) : ∃ c p, (publishTrained env n positions samples s).2.engine =
      { s.engine with token := c, published := p } := by
  unfold publishTrained
  split
  · exact ⟨_, _, rfl⟩
  · rename_i m _
    have hpublished := engine_publish env m s
    split
    · rename_i heq
      rwa [heq] at hpublished
    · rename_i heq
      rwa [heq] at hpublished
    · rename_i t heq
      rw [heq] at hpublished
      obtain ⟨⟨x, hx⟩, -⟩ :=
        reportMetrics_spec env ⟨samples, m.network.medianNeighborDistance⟩ t
      have hengine := congrArg Session.engine hx
      split <;> rename_i heq <;> rw [heq] at hengine <;> dsimp only at hengine ⊢ <;>
        rwa [hengine]

lemma generator_publish (env : Surroundings) (m : Model) (s : Session) :
    (publish env m s).2.engine.generator = s.engine.generator := by
  obtain ⟨c, p, h⟩ := engine_publish env m s
  rw [h]

lemma generator_adopt (env : Surroundings) (m : Model) (s : Session) :
    (adopt env m s).2.engine.generator = s.engine.generator := by
  obtain ⟨c, p, h⟩ := engine_adopt env m s
  rw [h]

/-! ### Publishing what has been trained -/

/-- A training is called off, and loading has been cancelled. -/
def CalledOff (ended : Except Fault (Option Model) × Session) : Prop :=
  ended.1 = .ok none ∧ ended.2.isCancelled = true

/-- A training fails after all: the catalog does not answer for a track of its model. -/
def Refused (catalog : Catalog) (ended : Except Fault (Option Model) × Session) : Prop :=
  ∃ track f, catalog.track track = .error f ∧ ended.1 = .error (.build (.catalog f))

lemma isCancelled_of_build_none {catalog : Catalog} {rows : List (Int × PositionSet)}
    {index : ModelIndex}
    (h : (ModelIndex.addTracks catalog (buildWatch env) rows index s).1 = .ok none) :
    (ModelIndex.addTracks catalog (buildWatch env) rows index s).2.isCancelled = true := by
  induction rows generalizing index s with
  | nil => simp [ModelIndex.addTracks] at h
  | cons row rest ih =>
    rw [ModelIndex.addTracks_cons] at h ⊢
    split at h
    · rename_i hpoll
      rw [if_pos hpoll]
      exact hpoll
    · rename_i hpoll
      rw [if_neg hpoll]
      cases hn : ModelIndex.withTrack catalog index row with
      | error e =>
        rw [hn] at h
        simp at h
      | ok index' =>
        rw [hn] at h
        exact ih h

/-- A training has published a model, whether or not it could be reported on. -/
def Yields (env : Surroundings) (m : Model)
    (ended : Except Fault (Option Model) × Session) : Prop :=
  ended.2.engine.model? = some m ∧
    (ended.1 = .ok (some m) ∨ ended.1 = .error .tracker ∧ Unlogged env m)

/-- **Publishing a trained model.** The catalog fails, or it is called off, or the model is
published. -/
lemma publishTrained_cases {n : Network} {positions : TrackPositions} (hp : n.grid.Holds positions)
    (hm : Model.make n positions = .ok m) (env : Surroundings) (samples : Nat) (s : Session) :
    let ended := publishTrained env n positions samples s
    ended.2.engine.generator = s.engine.generator ∧
      (Refused env.catalog ended ∨ CalledOff ended ∨ Yields env m ended) := by
  have hkept := generator_publish env m s
  have hnone : (ModelIndex.addTracks env.catalog (buildWatch env) m.positions.toList
      (.empty m.network.grid.width m.network.grid.height) s).1 = .ok none → _ :=
    isCancelled_of_build_none
  have hbuilt := ModelIndex.built_addTracks env.catalog (buildWatch env) s
    (ModelIndex.contains_of_holds (onGrid_of_make hp hm))
    (ModelIndex.faithful_empty m.network.grid)
  unfold publishTrained
  rw [hm]
  dsimp only
  unfold publish ModelIndex.build at hkept ⊢
  generalize ModelIndex.addTracks env.catalog (buildWatch env) m.positions.toList
    (.empty m.network.grid.width m.network.grid.height) s = built at hkept hnone hbuilt ⊢
  obtain ⟨_ | _ | index, t⟩ := built
  · cases hbuilt with
    | failed row f _ hf => exact ⟨hkept, .inl ⟨row.1, f, hf, rfl⟩⟩
  · exact ⟨hkept, .inr (.inl ⟨rfl, hnone rfl⟩)⟩
  · -- the report changes nothing of what has been published
    dsimp only
    obtain ⟨⟨x, hx⟩, hreported⟩ := reportMetrics_spec env
      ⟨samples, m.network.medianNeighborDistance⟩
      { t with engine := { t.engine with
        published := some ⟨m, index, m.network.medianNeighborDistance⟩ } }
    generalize reportMetrics env _ _ = reported at hx hreported ⊢
    obtain ⟨r, u⟩ := reported
    subst hx
    rcases hreported with rfl | ⟨rfl, hfailed⟩
    · exact ⟨hkept, .inr (.inr ⟨rfl, .inl rfl⟩)⟩
    · exact ⟨hkept, .inr (.inr ⟨rfl, .inr ⟨rfl, samples, hfailed⟩⟩)⟩

/-! ### Stage by stage -/

/-- Engines of which no training can tell one from the other. -/
structure TrainsAs (a b : Engine) : Prop where
  generator : a.generator = b.generator
  registry : a.registry = b.registry
  rate : a.settings.rate = b.settings.rate
  radius : a.settings.radius = b.settings.radius

lemma makeNetwork_agree (h : TrainsAs s.engine s'.engine) (room : Nat) (t : TrainSettings)
    (side : Nat) (dimensions : Int) :
    (makeNetwork room t side dimensions s).1 = (makeNetwork room t side dimensions s').1 ∧
      (makeNetwork room t side dimensions s).2.engine.generator =
        (makeNetwork room t side dimensions s').2.engine.generator := by
  unfold makeNetwork
  cases Network.Shape.check side side dimensions with
  | error e => exact ⟨rfl, h.generator⟩
  | ok shape =>
    dsimp only
    rw [h.generator, h.registry, h.rate, h.radius]
    split <;> exact ⟨rfl, rfl⟩

/-- A network is left untrained because loading has been cancelled. -/
def Abandoned (trained : Except Fault Network × Session) : Prop :=
  (∃ n, trained.1 = .ok n ∧ n.state = .aborted) ∧ trained.2.isCancelled = true

lemma abandoned_of_aborted {n : Network} {vectors : List (List Float)} {iterations : Int}
    (h : (n.train (Tensor.ofRows vectors) iterations (trainingWatch env) s.engine.generator
      s).result = .ok .aborted) : Abandoned (trainNetwork env n vectors iterations s) := by
  obtain ⟨hstate, w, hpoll, hw⟩ := Network.train_aborted h
  unfold trainNetwork
  dsimp only
  rw [h]
  refine ⟨⟨_, rfl, hstate⟩, ?_⟩
  rw [Session.isCancelled, hw]
  exact hpoll

/-- **Two listeners who fail at the same iterations**, whatever they ask, hear of the
same training. -/
lemma trainNetwork_agree (hfails : env.fails = env'.fails)
    (hgenerator : s.engine.generator = s'.engine.generator) (n : Network)
    (vectors : List (List Float)) (iterations : Int) :
    let trained := trainNetwork env n vectors iterations s
    let trained' := trainNetwork env' n vectors iterations s'
    Abandoned trained ∨ Abandoned trained' ∨
      (trained.1 = trained'.1 ∧ trained.2.engine.generator = trained'.2.engine.generator) := by
  have hann : ∀ k count w w', ((trainingWatch env).announce k count w).1 =
      ((trainingWatch env').announce k count w').1 := by
    intro k count w w'
    simp only [trainingWatch, hfails]
  obtain h | h | ⟨hresult, hnetwork, hdrawn⟩ := Network.train_agree (n := n) hann
    (Tensor.ofRows vectors) iterations s'.engine.generator s s'
  · exact .inl (abandoned_of_aborted (hgenerator ▸ h))
  · exact .inr (.inl (abandoned_of_aborted h))
  · refine .inr (.inr ?_)
    unfold trainNetwork
    rw [hgenerator]
    dsimp only
    rw [hresult, hnetwork, hdrawn]
    split <;> exact ⟨rfl, rfl⟩

/-- Tracks are given the same positions, unless that is called off. -/
lemma classify_agree (n : Network) (rows : List Sample) (ps : TrackPositions) (s s' : Session) :
    ((classify n rows ps s).1 = .ok none ∧ s.isCancelled = true) ∨
      ((classify n rows ps s').1 = .ok none ∧ s'.isCancelled = true) ∨
        (classify n rows ps s).1 = (classify n rows ps s').1 := by
  induction rows generalizing ps with
  | nil => exact .inr (.inr rfl)
  | cons row rows ih =>
    obtain ⟨track, v⟩ := row
    simp only [classify]
    by_cases hs : s.isCancelled = true
    · rw [if_pos hs]
      exact .inl ⟨rfl, hs⟩
    by_cases hs' : s'.isCancelled = true
    · rw [if_pos hs']
      exact .inr (.inl ⟨rfl, hs'⟩)
    rw [if_neg hs, if_neg hs']
    split
    · exact .inr (.inr rfl)
    · exact ih _

/-- Two trainings that come to the same, unless one of them is called off: they leave the generator
in the same state, and have the same result or have published the same model, unless the catalog of
one fails after all. -/
def Agree (env env' : Surroundings) (ended ended' : Except Fault (Option Model) × Session) : Prop :=
  CalledOff ended ∨ CalledOff ended' ∨
    (ended.2.engine.generator = ended'.2.engine.generator ∧
      (ended.1 = ended'.1 ∨ (∃ m, Yields env m ended ∧ Yields env' m ended') ∨
        Refused env.catalog ended ∨ Refused env'.catalog ended'))

lemma Agree.same {r : Except Fault (Option Model)}
    (h : s.engine.generator = s'.engine.generator) : Agree env env' (r, s) (r, s') :=
  .inr (.inr ⟨h, .inl rfl⟩)

lemma publishTrained_agree (hgenerator : s.engine.generator = s'.engine.generator) (n : Network)
    {positions : TrackPositions} (hp : n.grid.Holds positions) (samples : Nat) :
    Agree env env' (publishTrained env n positions samples s)
      (publishTrained env' n positions samples s') := by
  cases hm : Model.make n positions with
  | error e =>
    unfold publishTrained
    rw [hm]
    exact .same hgenerator
  | ok m =>
    obtain ⟨hkept, hcases⟩ := publishTrained_cases hp hm env samples s
    obtain ⟨hkept', hcases'⟩ := publishTrained_cases hp hm env' samples s'
    have hdrawn := hkept.trans (hgenerator.trans hkept'.symm)
    obtain hrefused | hoff | hyields := hcases
    · exact .inr (.inr ⟨hdrawn, .inr (.inr (.inl hrefused))⟩)
    · exact .inl hoff
    obtain hrefused | hoff | hyields' := hcases'
    · exact .inr (.inr ⟨hdrawn, .inr (.inr (.inr hrefused))⟩)
    · exact .inr (.inl hoff)
    · exact .inr (.inr ⟨hdrawn, .inr (.inl ⟨m, hyields, hyields'⟩)⟩)

lemma conclude_agree (hgenerator : s.engine.generator = s'.engine.generator) (n : Network)
    (rows : List Sample) (samples : Nat) :
    Agree env env' (conclude env n rows samples s)
      (conclude env' n rows samples s') := by
  unfold conclude
  split
  · exact .same hgenerator
  · have hsame := (classify_eq (s := s) n rows ∅).1
    have hsame' := (classify_eq (s := s') n rows ∅).1
    have hagree := classify_agree n rows ∅ s s'
    have hholds : ∀ positions, (classify n rows ∅ s).1 = .ok (some positions) →
        n.grid.Holds positions := fun _ => holds_of_classify
    generalize classify n rows ∅ s = placed at hsame hagree hholds ⊢
    generalize classify n rows ∅ s' = placed' at hsame' hagree ⊢
    obtain ⟨r, t⟩ := placed
    obtain ⟨r', t'⟩ := placed'
    obtain rfl : t = s := hsame
    obtain rfl : t' = s' := hsame'
    obtain ⟨rfl, hoff⟩ | ⟨rfl, hoff⟩ | rfl := hagree
    · exact .inl ⟨rfl, hoff⟩
    · exact .inr (.inl ⟨rfl, hoff⟩)
    · rcases r with e | _ | positions
      · exact .same hgenerator
      · exact .same hgenerator
      · exact publishTrained_agree hgenerator n (hholds positions rfl) samples

lemma calledOff_of_abandoned {trained : Except Fault Network × Session} (h : Abandoned trained)
    (env : Surroundings) (rows : List Sample) (samples : Nat) :
    CalledOff (concludeTrained env rows samples trained) := by
  obtain ⟨⟨n, hn, hstate⟩, hs⟩ := h
  obtain ⟨r, t⟩ := trained
  obtain rfl : r = .ok n := hn
  rw [concludeTrained, conclude, if_pos hstate]
  exact ⟨rfl, hs⟩

lemma concludeTrained_agree (hgenerator : s.engine.generator = s'.engine.generator)
    (hfails : env.fails = env'.fails) (n : Network) (vectors : List (List Float)) (iterations : Int)
    (rows : List Sample) (samples : Nat) :
    Agree env env'
      (concludeTrained env rows samples (trainNetwork env n vectors iterations s))
      (concludeTrained env' rows samples (trainNetwork env' n vectors iterations s')) := by
  obtain hoff | hoff | ⟨hresult, hdrawn⟩ :=
    trainNetwork_agree hfails hgenerator n vectors iterations
  · exact .inl (calledOff_of_abandoned hoff _ _ _)
  · exact .inr (.inl (calledOff_of_abandoned hoff _ _ _))
  · generalize trainNetwork env n vectors iterations s = trained at hresult hdrawn ⊢
    generalize trainNetwork env' n vectors iterations s' = trained' at hresult hdrawn ⊢
    obtain ⟨r, w⟩ := trained
    obtain ⟨r', w'⟩ := trained'
    obtain rfl : r = r' := hresult
    cases r with
    | error e => exact .same hdrawn
    | ok n => exact conclude_agree hdrawn n rows samples

/-- Whether a training cannot be reported on before it begins. -/
def Tracker.mutesParams (t : Tracker) (p : Params) : Bool :=
  t.params p == .failed

/-- **Reporting on a training before it begins** fails only if the tracker does, and changes nothing
of the engine. -/
lemma reportParams_spec (env : Surroundings) (p : Params) (s : Session) :
    (reportParams env p s).1 =
        (if env.tracker.mutesParams p then .error .tracker else .ok ()) ∧
      (reportParams env p s).2.engine = s.engine := by
  unfold reportParams Tracker.mutesParams
  cases env.tracker.params p <;> exact ⟨rfl, rfl⟩

/-- Surroundings in which the same trainings fail because of the listener, of the tracker, or
because there is no room for a list. -/
structure FailsAs (env env' : Surroundings) : Prop where
  room : env.room = env'.room
  mutes : env.tracker.mutesParams = env'.tracker.mutesParams
  fails : env.fails = env'.fails

lemma prepare_agree (h : TrainsAs s.engine s'.engine) (hfails : FailsAs env env')
    (t : TrainSettings) (side : Nat) (dimensions : Int) (samples : Nat) :
    (prepare env t side dimensions samples s).1 = (prepare env' t side dimensions samples s').1 ∧
      (prepare env t side dimensions samples s).2.engine.generator =
        (prepare env' t side dimensions samples s').2.engine.generator := by
  have hwarned : TrainsAs
    (if isFew samples t.perNeuron then s.warn [.fewTracks samples] else s).engine
      (if isFew samples t.perNeuron then s'.warn [.fewTracks samples] else s').engine := by
    split <;> exact h
  obtain ⟨hmade, hdrawn⟩ := makeNetwork_agree hwarned env'.room t side dimensions
  unfold prepare
  dsimp only
  rw [hfails.room, hmade]
  split
  · exact ⟨rfl, hdrawn⟩
  · obtain ⟨hreport, hkept⟩ := reportParams_spec env _ _
    obtain ⟨hreport', hkept'⟩ := reportParams_spec env' _ _
    rw [hreport, hkept, hreport', hkept', hfails.mutes]
    exact ⟨rfl, hdrawn⟩

/-- **Two trainings on the same samples agree**, with the same settings and the generator in the
same state. -/
lemma trainOn_agree (h : TrainsAs s.engine s'.engine) (hfails : FailsAs env env')
    (t : TrainSettings) (dimensions : Int) (samples : List Sample) :
    Agree env env' (trainOn env t dimensions samples s)
      (trainOn env' t dimensions samples s') := by
  obtain ⟨f, hfault⟩ | ⟨vectors, side, -, -, hstages⟩ := trainOn_stages t dimensions samples
  · rw [hfault, hfault]
    exact .same h.generator
  · obtain ⟨hmade, hdrawn⟩ := prepare_agree h hfails t side dimensions samples.length
    rw [hstages, hstages]
    generalize prepare env t side dimensions samples.length s = made at hmade hdrawn ⊢
    generalize prepare env' t side dimensions samples.length s' = made' at hmade hdrawn ⊢
    obtain ⟨r, v⟩ := made
    obtain ⟨r', v'⟩ := made'
    obtain rfl : r = r' := hmade
    cases r with
    | error e => exact .same hdrawn
    | ok n =>
      exact concludeTrained_agree hdrawn hfails.fails n vectors t.iterations _
        samples.length

/-! ### Attempts to train -/

/-- All that a training is given, but for the random choices. -/
structure Lesson where
  settings : TrainSettings
  dimensions : Int
  samples : List Sample
  registry : Registry
  rate : Float
  radius : Float
  room : Nat
  /-- What the tracker cannot be told of before the training begins. -/
  mutes : Params → Bool
  /-- The iterations at which the listener fails. -/
  fails : Nat → Bool

/-- An attempt to train: all that is at hand when the samples have been collected. -/
structure Attempt where
  env : Surroundings
  settings : TrainSettings
  dimensions : Int
  samples : List Sample
  session : Session

namespace Attempt

def lesson (x : Attempt) : Lesson where
  settings := x.settings
  dimensions := x.dimensions
  samples := x.samples
  registry := x.session.engine.registry
  rate := x.session.engine.settings.rate
  radius := x.session.engine.settings.radius
  room := x.env.room
  mutes := x.env.tracker.mutesParams
  fails := x.env.fails

def ended (x : Attempt) : Except Fault (Option Model) × Session :=
  trainOn x.env x.settings x.dimensions x.samples x.session

def result (x : Attempt) : Except Fault (Option Model) :=
  x.ended.1

/-- **Attempts at one lesson agree**, with the generator in the same state. -/
lemma agree {x y : Attempt} (h : x.lesson = y.lesson)
    (hgenerator : x.session.engine.generator = y.session.engine.generator) :
    Agree x.env y.env x.ended y.ended := by
  obtain ⟨env, t, dimensions, samples, s⟩ := x
  obtain ⟨env', t', dimensions', samples', s'⟩ := y
  simp only [lesson, Lesson.mk.injEq] at h
  obtain ⟨rfl, rfl, rfl, hregistry, hrate, hradius, hroom, hmutes, hfails⟩ := h
  exact trainOn_agree ⟨hgenerator, hregistry, hrate, hradius⟩ ⟨hroom, hmutes, hfails⟩ t dimensions
    samples

end Attempt

/-- The attempt that a training comes to, if its features are known and there are samples. -/
def attemptAt? (env : Surroundings) (t : TrainSettings) (s : Session) : Option Attempt :=
  let names := Feature.orderedNames t.features.names
  match Feature.totalDimensions s.engine.registry names, collectSamples env names s with
  | .ok dimensions, (.ok (some (x :: xs)), s) => some ⟨env, t, dimensions, x :: xs, s⟩
  | _, _ => none

def ownAttempt? (env : Surroundings) (s : Session) : Option Attempt :=
  match TrainSettings.ofSettings s.engine.settings s.engine.defaults with
  | .error _ => none
  | .ok t => attemptAt? env t s

/-- The attempt to train that a call comes to, if it does: it finds no model, and there
are samples. -/
def Call.attempt? (env : Surroundings) (call : Call) (s : Session) : Option Attempt :=
  match call, env.cache with
  | .cached _, _ => none
  | .training t, _ => attemptAt? env t s
  | .load _, none => ownAttempt? env s
  | .load true, some c =>
    match c.invalidate s.disk with
    | (.error _, _) => none
    | (.ok (), d) => ownAttempt? env { s with disk := d }
  | .load false, some c =>
    match c.read s.disk with
    | (.ok none, warnings) => ownAttempt? env (s.warn (warnings.map .cache))
    | _ => none

/-- How a call of an engine ends that comes to an attempt to train, or to none. -/
inductive Attempted (e : Engine) : Option Attempt → Except Fault Outcome → Engine → Prop where
  /-- It has not trained, and has drawn on the generator no more than if it had not been made. -/
  | without (r : Except Fault Outcome) (e' : Engine) (hr : r ≠ .ok .trained)
    (hgenerator : e'.generator = e.generator) : Attempted e none r e'
  /-- It has drawn on the generator in the attempt only. If it has trained, then the attempt has
  come to a model; and that has been published. -/
  | within (x : Attempt) (r : Except Fault Outcome)
    (hgenerator : x.session.engine.generator = e.generator)
    (hr : r ≠ .ok .loadedFromCache ∧ r ≠ .ok .noTrainableData)
    (htrained : r = .ok .trained → ∃ m, x.result = .ok (some m))
    (hmodel : ∀ m, x.result = .ok (some m) → x.ended.2.engine.model? = some m) :
    Attempted e (some x) r x.ended.2.engine

lemma model_of_publishTrained {n : Network} {positions : TrackPositions} {samples : Nat}
    (hp : n.grid.Holds positions)
    (h : (publishTrained env n positions samples s).1 = .ok (some m)) :
    (publishTrained env n positions samples s).2.engine.model? = some m := by
  cases hm : Model.make n positions with
  | error e =>
    unfold publishTrained at h
    rw [hm] at h
    simp at h
  | ok m' =>
    obtain ⟨-, ⟨_, f, -, hf⟩ | ⟨hoff, -⟩ | ⟨hmodel, hresult | ⟨herror, -⟩⟩⟩ :=
      publishTrained_cases hp hm env samples s
    · simp [hf] at h
    · simp [hoff] at h
    · obtain rfl : m' = m := by simpa [hresult] using h
      exact hmodel
    · simp [herror] at h

lemma model_of_conclude {n : Network} {rows : List Sample} {samples : Nat}
    (h : (conclude env n rows samples s).1 = .ok (some m)) :
    (conclude env n rows samples s).2.engine.model? = some m := by
  unfold conclude at h ⊢
  split at h
  · simp at h
  · rename_i hstate
    rw [if_neg hstate]
    have hholds : ∀ positions, (classify n rows ∅ s).1 = .ok (some positions) →
        n.grid.Holds positions := fun _ => holds_of_classify
    generalize classify n rows ∅ s = placed at h hholds ⊢
    obtain ⟨_ | _ | positions, t⟩ := placed
    · simp at h
    · simp at h
    · exact model_of_publishTrained (hholds positions rfl) h

lemma model_of_trainOn {t : TrainSettings} {dimensions : Int} {samples : List Sample}
    (h : (trainOn env t dimensions samples s).1 = .ok (some m)) :
    (trainOn env t dimensions samples s).2.engine.model? = some m := by
  obtain ⟨f, hfault⟩ | ⟨vectors, side, -, -, hstages⟩ := trainOn_stages t dimensions samples
  · rw [hfault] at h
    cases h
  · rw [hstages] at h ⊢
    generalize prepare env t side dimensions samples.length s = prepared at h ⊢
    obtain ⟨_ | n, u⟩ := prepared
    · cases h
    · dsimp only at h ⊢
      generalize trainNetwork env n vectors t.iterations u = trained at h ⊢
      obtain ⟨_ | n, v⟩ := trained
      · cases h
      · exact model_of_conclude h

def Attempt.outcome (x : Attempt) : Except Fault (Outcome × Option Model) × Session :=
  match x.ended with
  | (.error e, s) => (.error e, s)
  | (.ok none, s) => (.ok (.cancelled, none), s)
  | (.ok (some m), s) => (.ok (.trained, some m), s)

/-- **A training comes to an attempt**, or it makes no use of the generator and has no model. -/
lemma train_cases (env : Surroundings) (t : TrainSettings) (s : Session) :
    (∃ x, attemptAt? env t s = some x ∧ x.session.engine.generator = s.engine.generator ∧
        train env t s = x.outcome) ∨
      (attemptAt? env t s = none ∧ (train env t s).2.engine.generator = s.engine.generator ∧
        ∀ outcome m, (train env t s).1 = .ok (outcome, m) → outcome ≠ .trained ∧ m = none) := by
  have hkept := generator_collectSamples env (Feature.orderedNames t.features.names) s
  unfold attemptAt? train
  dsimp only
  cases Feature.totalDimensions s.engine.registry (Feature.orderedNames t.features.names) with
  | error e => exact .inr ⟨rfl, rfl, by simp⟩
  | ok dimensions =>
    dsimp only
    generalize collectSamples env (Feature.orderedNames t.features.names) s = collected at hkept ⊢
    obtain ⟨_ | _ | _ | ⟨x, xs⟩, s'⟩ := collected
    · exact .inr ⟨rfl, hkept, by simp⟩
    · exact .inr ⟨rfl, hkept, by rintro _ _ ⟨⟩; simp⟩
    · exact .inr ⟨rfl, hkept, by rintro _ _ ⟨⟩; simp⟩
    · exact .inl ⟨_, rfl, hkept, rfl⟩

/-- An attempt ends without a model if it is called off, and only then comes to no model without
failing. -/
lemma Attempt.of_outcome {x : Attempt} {outcome : Outcome} {model : Option Model}
    (h : x.outcome.1 = .ok (outcome, model)) :
    outcome = .cancelled ∨ outcome = .trained ∧ ∃ m, x.result = .ok (some m) := by
  unfold Attempt.outcome at h
  unfold Attempt.result
  generalize x.ended = ended at h ⊢
  obtain ⟨_ | _ | m, t⟩ := ended
  · simp at h
  · obtain ⟨rfl, -⟩ : Outcome.cancelled = outcome ∧ none = model := by simpa using h
    exact .inl rfl
  · obtain ⟨rfl, -⟩ : Outcome.trained = outcome ∧ some m = model := by simpa using h
    exact .inr ⟨rfl, m, rfl⟩

lemma Attempt.engine_outcome (x : Attempt) : x.outcome.2.engine = x.ended.2.engine := by
  unfold Attempt.outcome
  rcases x.ended with ⟨_ | _ | m, t⟩ <;> rfl

variable {e e' : Engine}

lemma Attempted.of_train {t : TrainSettings} {r : Except Fault Outcome}
    (hgenerator : s.engine.generator = e.generator) (hengine : e' = (train env t s).2.engine)
    (hr : ∀ outcome, r = .ok outcome → ∃ model, (train env t s).1 = .ok (outcome, model)) :
    Attempted e (attemptAt? env t s) r e' := by
  subst hengine
  obtain ⟨x, hx, hbegun, htrain⟩ | ⟨hnone, hkept, hnot⟩ := train_cases env t s
  · rw [hx, htrain, x.engine_outcome]
    have hends : ∀ outcome, r = .ok outcome →
        outcome = .cancelled ∨ outcome = .trained ∧ ∃ m, x.result = .ok (some m) := by
      intro outcome h
      obtain ⟨model, hmodel⟩ := hr outcome h
      rw [htrain] at hmodel
      exact Attempt.of_outcome hmodel
    refine .within x r (hbegun.trans hgenerator) ⟨fun h => ?_, fun h => ?_⟩ (fun h => ?_)
      fun m => model_of_trainOn
    · simpa using hends _ h
    · simpa using hends _ h
    · simpa using hends _ h
  · rw [hnone]
    refine .without r _ (fun h => ?_) (hkept.trans hgenerator)
    obtain ⟨model, hmodel⟩ := hr _ h
    exact (hnot _ _ hmodel).1 rfl

lemma attempted_loadFromTraining (hgenerator : s.engine.generator = e.generator)
    (t : TrainSettings) : Attempted e (attemptAt? env t s) (loadFromTraining env t s).1
      (loadFromTraining env t s).2.engine := by
  refine .of_train hgenerator (engine_loadFromTraining env t s) fun outcome h => ?_
  unfold loadFromTraining at h
  split at h <;> rename_i heq <;> rw [heq]
  · simp at h
  · obtain rfl := Except.ok.inj h
    exact ⟨_, rfl⟩

lemma attempted_loadByTraining (hgenerator : s.engine.generator = e.generator) :
    Attempted e (ownAttempt? env s) (loadByTraining env s).1 (loadByTraining env s).2.engine := by
  unfold ownAttempt? loadByTraining
  cases TrainSettings.ofSettings s.engine.settings s.engine.defaults with
  | error err => exact .without _ _ (by simp) hgenerator
  | ok t =>
    dsimp only
    split
    · rename_i heq
      exact .of_train hgenerator (by rw [heq]) (by simp)
    · rename_i outcome m s' c heq _
      have hengine := engine_store env c m s'
      split <;> rename_i hstore <;> rw [hstore] at hengine
      · exact .of_train hgenerator (by rw [heq, ← hengine]) (by simp)
      · exact .of_train hgenerator (by rw [heq, ← hengine]) fun o ho => by
          obtain rfl := Except.ok.inj ho
          exact ⟨_, congrArg Prod.fst heq⟩
    · rename_i heq _
      exact .of_train hgenerator (by rw [heq]) fun o ho => by
        obtain rfl := Except.ok.inj ho
        exact ⟨_, congrArg Prod.fst heq⟩

lemma adopt_ne_trained (env : Surroundings) (m : Model) (s : Session) :
    (adopt env m s).1 ≠ .ok .trained := by
  unfold adopt
  split <;> simp

/-- **A call trains in one attempt at most**, and draws on the generator in that only. -/
lemma attempted_run (env : Surroundings) (call : Call) (e : Engine) (d : Disk) :
    Attempted e (call.attempt? env (Session.start e d)) (call.run env (Session.start e d)).1
      (call.run env (Session.start e d)).2.engine := by
  have hadopt (m : Model) (s : Session) (hs : s.engine = e) :
      Attempted e none (adopt env m s).1 (adopt env m s).2.engine :=
    .without _ _ (adopt_ne_trained env m s) ((generator_adopt env m s).trans (hs ▸ rfl))
  have hstart : (Session.start e d).engine = e := rfl
  cases call with
  | training t =>
    unfold Call.attempt? Call.run
    exact attempted_loadFromTraining (congrArg Engine.generator hstart) t
  | cached m =>
    unfold Call.attempt? Call.run
    exact hadopt m _ rfl
  | load force =>
    unfold Call.attempt? Call.run Engine.load
    cases env.cache with
    | none => cases force <;> exact attempted_loadByTraining (congrArg Engine.generator hstart)
    | some c =>
      cases force with
      | true =>
        dsimp only
        obtain ⟨_ | _, d'⟩ := c.invalidate (Session.start e d).disk
        · exact .without _ _ (by simp) rfl
        · exact attempted_loadByTraining rfl
      | false =>
        dsimp only
        obtain ⟨_ | _ | m, warnings⟩ := c.read (Session.start e d).disk
        · exact .without _ _ (by simp) rfl
        · exact attempted_loadByTraining rfl
        · exact hadopt m _ rfl

/-! ### A training that leaves tracks out -/

/-- Four tracks: the first has no values, the third has one too many. -/
def mixedSurroundings (cache : Option ModelCache) : Surroundings :=
  { bareSurroundings with
    cache
    names := ModelCache.firstNames
    listed := { bareSurroundings.listed with trackIds := .ok [3, 7, 9, 8] }
    source := .ofTable [(7, [(.chars "loudness", [1.0])]), (9, [(.chars "loudness", [0.5, 2.0])]),
      (8, [(.chars "loudness", [2.0])])] }

variable {cache : Option ModelCache}

def mixedSamples : List Sample :=
  [(7, [1.0]), (8, [2.0])]

def mixedVectors : List (List Float) :=
  (scaleVectors 1 (mixedSamples.map (·.2))).toOption.getD []

lemma collectSamples_mixed {e : Engine} (hregistry : e.registry = soloEngine.registry)
    (hcalm : e.cancelRequested = false) :
    ∃ s, collectSamples (mixedSurroundings cache) (Feature.orderedNames soloTraining.features.names)
        (Session.start e Disk.empty) = (.ok (some mixedSamples), s) ∧ s.engine = e := by
  obtain ⟨settings, registry, defaults, ⟨isCancelled⟩, generator, evictions, published⟩ := e
  dsimp only at hregistry
  subst hregistry
  obtain rfl : isCancelled = false := hcalm
  exact ⟨_, rfl, rfl⟩

lemma trainOn_mixed {s : Session} (hregistry : s.engine.registry = soloEngine.registry)
    (hcalm : s.isCancelled = false) :
    ∃ n p q t, n.state = .trained ∧ t.isCancelled = false ∧
      (∃ g, t.engine = { s.engine with generator := g }) ∧
        n.grid.Holds (addPosition (addPosition ∅ 7 p) 8 q) ∧
      trainOn (mixedSurroundings cache) soloTraining 1 mixedSamples s =
        publishTrained (mixedSurroundings cache) n (addPosition (addPosition ∅ 7 p) 8 q) 2 t := by
  have hside : Grid.sideFor mixedSamples.length soloTraining.perNeuron = .ok 2 := by decide +kernel
  have hvectors : scaleVectors 1 (mixedSamples.map (·.2)) = .ok mixedVectors := rfl
  obtain ⟨n, u, hprepared, n', t, htrained, hstate, hkept, hengine, p, q, hclassified⟩ : ∃ n u,
      prepare (mixedSurroundings cache) soloTraining 2 1 mixedSamples.length s = (.ok n, u) ∧
      ∃ n' t, trainNetwork (mixedSurroundings cache) n mixedVectors soloTraining.iterations u =
        (.ok n', t) ∧
        n'.state = .trained ∧ t.isCancelled = false ∧
        (∃ g, t.engine = { s.engine with generator := g }) ∧
          ∃ p q, classify n' ((mixedSamples.map (·.1)).zip mixedVectors) ∅ t =
          (.ok (some (addPosition (addPosition ∅ 7 p) 8 q)), t) := by
    obtain ⟨⟨settings, registry, defaults, ⟨isCancelled⟩, generator, evictions, published⟩, disk,
      fetched, lookUps, progress, seen, warnings, params, metrics⟩ := s
    dsimp only at hregistry
    subst hregistry
    obtain rfl : isCancelled = false := hcalm
    exact ⟨_, _, rfl, _, _, rfl, rfl, rfl, ⟨_, rfl⟩, _, _, rfl⟩
  refine ⟨n', p, q, t, hstate, hkept, hengine,
    holds_of_classify (congrArg Prod.fst hclassified), ?_⟩
  rw [trainOn_staged hvectors hside, hprepared]
  dsimp only
  rw [htrained, concludeTrained, conclude, if_neg (by rw [hstate]; decide), hclassified]
  rfl

lemma exists_result_mixed {s : Session} (hregistry : s.engine.registry = soloEngine.registry)
    (hcalm : s.isCancelled = false) :
    let ended := trainOn (mixedSurroundings cache) soloTraining 1 mixedSamples s
    (∃ m, ended.1 = .ok (some m)) ∧
      ∃ g c p, ended.2.engine = { s.engine with generator := g, token := c, published := p } := by
  obtain ⟨n, p, q, t, hstate, hkept, ⟨g, hengine⟩, hholds, htrain⟩ := trainOn_mixed hregistry hcalm
  let m : Model := ⟨n, addPosition (addPosition ∅ 7 p) 8 q, hstate⟩
  have hmake : Model.make n (addPosition (addPosition ∅ 7 p) 8 q) = .ok m := by
    rw [Model.make, dif_pos hstate]
  have hcatalog : ∀ row ∈ m.positions.toList,
      ∃ t, (mixedSurroundings cache).catalog.track row.1 = .ok t := fun row _ => ⟨⟨none, []⟩, rfl⟩
  obtain ⟨index, hindex⟩ := ModelIndex.exists_build (ModelIndex.contains_of_holds hholds) hcatalog
  have hpublish := publish_calm (m := m) hkept (fun _ => rfl) hindex
  obtain ⟨c, published, hended⟩ :=
    engine_publishTrained (mixedSurroundings cache) n (addPosition (addPosition ∅ 7 p) 8 q) 2 t
  rw [htrain]
  refine ⟨?_, g, c, published, by rw [hended, hengine]⟩
  rw [publishTrained, hmake]
  dsimp only
  generalize publish (mixedSurroundings cache) m t = published at hpublish
  obtain ⟨r, u⟩ := published
  obtain rfl : r = .ok true := hpublish
  exact ⟨m, rfl⟩

def mixedLesson : Lesson where
  settings := soloTraining
  dimensions := 1
  samples := mixedSamples
  registry := soloEngine.registry
  rate := soloEngine.settings.rate
  radius := soloEngine.settings.radius
  room := (mixedSurroundings none).room
  mutes := (mixedSurroundings none).tracker.mutesParams
  fails := (mixedSurroundings none).fails

/-- Whatever an engine has been through, the training comes to a model. -/
lemma attemptAt?_mixed (cache : Option ModelCache) {e : Engine}
    (hsettings : e.settings = soloEngine.settings)
    (hregistry : e.registry = soloEngine.registry) (hcalm : e.cancelRequested = false) :
    ∃ x, attemptAt? (mixedSurroundings cache) soloTraining (Session.start e Disk.empty) = some x ∧
      x.lesson = mixedLesson ∧ (∃ m, x.result = .ok (some m)) ∧
      ∃ g c p, x.ended.2.engine = { e with generator := g, token := c, published := p } := by
  obtain ⟨s, hcollect, rfl⟩ := collectSamples_mixed hregistry hcalm
  have hdimensions : Feature.totalDimensions soloEngine.registry
      (Feature.orderedNames soloTraining.features.names) = .ok 1 := rfl
  have hengine : (Session.start s.engine Disk.empty).engine = s.engine := rfl
  refine ⟨⟨(mixedSurroundings cache), soloTraining, 1, mixedSamples, s⟩, ?_, ?_,
    exists_result_mixed hregistry hcalm⟩
  · unfold attemptAt?
    dsimp only
    rw [hengine, hregistry, hdimensions, hcollect]
    rfl
  · rw [Attempt.lesson, mixedLesson]
    dsimp only
    rw [hsettings, hregistry]
    rfl

lemma train_mixed (cache : Option ModelCache) {e : Engine}
    (hsettings : e.settings = soloEngine.settings)
    (hregistry : e.registry = soloEngine.registry) (hcalm : e.cancelRequested = false) :
    ∃ m s, train (mixedSurroundings cache) soloTraining (Session.start e Disk.empty) =
      (.ok (.trained, some m), s) ∧ s.engine.model? = some m := by
  obtain ⟨x, hx, -, ⟨m, hm⟩, -⟩ := attemptAt?_mixed cache hsettings hregistry hcalm
  obtain ⟨x', hx', -, htrain⟩ | ⟨hnone, -⟩ :=
    train_cases (mixedSurroundings cache) soloTraining (Session.start e Disk.empty)
  · obtain rfl : x = x' := Option.some.inj (hx.symm.trans hx')
    have hmodel : x.ended.2.engine.model? = some m := model_of_trainOn hm
    rw [Attempt.result] at hm
    rw [htrain, Attempt.outcome]
    generalize x.ended = ended at hm hmodel
    obtain ⟨r, t⟩ := ended
    obtain rfl : r = .ok (some m) := hm
    exact ⟨m, t, rfl, hmodel⟩
  · cases hx.symm.trans hnone

end SoundAtlas.Engine
