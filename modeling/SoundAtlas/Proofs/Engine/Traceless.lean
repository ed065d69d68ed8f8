import SoundAtlas.Proofs.Engine.Classifying
import SoundAtlas.Proofs.Feature.Fetching

/-!
Tracks that leave no trace. A track without values, or with the wrong number of them, is left out
before anything is counted or drawn. So two trainings with the same usable tracks come to the same
model and leave the generator in the same state, wherever and however many others are among them.
-/

namespace SoundAtlas

/-! ### What building asks of a catalog -/

/-- Two catalogs both answer for a track, or fail for the same reason. -/
def Catalog.AnswersAlike (a b : Catalog) (track : Int) : Prop :=
  (a.track track).map (fun _ => ()) = (b.track track).map fun _ => ()

def Catalog.answers (catalog : Catalog) (tracks : List Int) : Except Catalog.Fault Unit :=
  tracks.forM fun track => (catalog.track track).map fun _ => ()

lemma Catalog.answers_cons (catalog : Catalog) (track : Int) (tracks : List Int) :
    catalog.answers (track :: tracks) =
      (catalog.track track).map (fun _ => ()) >>= fun _ => catalog.answers tracks :=
  rfl

lemma Catalog.answers_congr {a b : Catalog} {tracks : List Int}
    (h : ∀ track ∈ tracks, a.AnswersAlike b track) : a.answers tracks = b.answers tracks := by
  induction tracks with
  | nil => rfl
  | cons track tracks ih =>
    obtain ⟨htrack, htracks⟩ := List.forall_mem_cons.1 h
    rw [answers_cons, answers_cons, htrack, ih htracks]

/-- **Nothing but the catalog makes the building of indices fail**, if all positions are on the grid
and nobody stops it. -/
lemma ModelIndex.addTracks_answers {σ : Type} {g : Grid} {watch : BuildWatch σ} {P : σ → Prop}
    (hgo : ∀ w, P w → (watch.poll w).1 = false ∧ P (watch.lookUp (watch.poll w).2))
    (catalog : Catalog) {rows : List (Int × PositionSet)}
    (hrows : ∀ row ∈ rows, ∀ p ∈ row.2, g.Contains p) {m : ModelIndex} (hm : m.Faithful g) {w : σ}
    (hw : P w) :
    (addTracks catalog watch rows m w).1.map Option.isSome =
      ((catalog.answers (rows.map (·.1))).mapError .catalog).map fun _ => true := by
  induction rows generalizing m w with
  | nil => rfl
  | cons row rest ih =>
    obtain ⟨hrow, hrest⟩ := List.forall_mem_cons.1 hrows
    obtain ⟨hpoll, hnext⟩ := hgo w hw
    have hpositions : ∀ p ∈ row.2.toList, g.Contains p := fun p hp =>
      hrow p (Std.ExtTreeSet.mem_toList.1 hp)
    rw [addTracks_cons, if_neg (by simp [hpoll]), withTrack_eq, List.map_cons, Catalog.answers_cons]
    obtain ⟨f, hf, hadded⟩ | ⟨⟨t, ht⟩, m', hadded, hgrown⟩ :=
      grown_withTrack hm catalog row.1 hpositions
    · rw [hadded, hf]
      rfl
    · rw [hadded, ht]
      exact ih hrest hgrown.faithful hnext

namespace Engine

open Feature

variable {env env' : Surroundings} {e e' : Engine} {d d' : Disk} {s s' : Session}

/-! ### Nobody cancels -/

lemma Calm.course {listed : Bool} (h : Calm env e) (hs : Course env e listed s) :
    s.isCancelled = false := by
  rw [Bool.eq_false_iff]
  intro hcancelled
  obtain hbefore | ⟨ev, -, hev⟩ := hs.flag.1 hcancelled
  · simp [h.before] at hbefore
  · simp [h.meanwhile] at hev

lemma publish_answers (hcalm : ∀ ev, env.cancels ev = false) (hs : s.isCancelled = false)
    {m : Model} (hm : m.OnGrid) : (publish env m s).1 =
      ((env.catalog.answers m.positions.keys).mapError fun f => .build (.catalog f)).map
        fun _ => true := by
  have hbuilt := ModelIndex.addTracks_answers (buildWatch_calm hcalm) env.catalog
    (ModelIndex.contains_of_holds hm) (ModelIndex.faithful_empty m.network.grid) hs
  rw [Std.ExtTreeMap.map_fst_toList_eq_keys] at hbuilt
  unfold publish ModelIndex.build
  generalize ModelIndex.addTracks env.catalog (buildWatch env) m.positions.toList
    (.empty m.network.grid.width m.network.grid.height) s = built at hbuilt ⊢
  cases hanswers : env.catalog.answers m.positions.keys with
  | error f =>
    rw [hanswers] at hbuilt
    obtain ⟨_ | _ | index, t⟩ := built
    · obtain rfl := Except.error.inj hbuilt
      rfl
    · cases hbuilt
    · cases hbuilt
  | ok =>
    rw [hanswers] at hbuilt
    obtain ⟨_ | _ | index, t⟩ := built
    · cases hbuilt
    · cases Except.ok.inj hbuilt
    · rfl

/-- A model has been published, and what is said of that depends on the report only. -/
structure Reported (env : Surroundings) (m : Model) (samples : ℕ)
    (ended : Except Fault (Option Model) × Session) : Prop where
  yields : Yields env m ended
  result : ended.1 =
    if env.tracker.metrics ⟨samples, m.network.medianNeighborDistance⟩ = .failed
    then .error .tracker else .ok (some m)

/-- **A calm training is published** if the catalog answers for its tracks, and else fails. -/
lemma publishTrained_answers (hcalm : ∀ ev, env.cancels ev = false)
    (hu : Underway env e d true s) (hs : s.isCancelled = false) {n : Network}
    {positions : TrackPositions} (hp : n.grid.Holds positions) {m : Model}
    (hm : Model.make n positions = .ok m) (samples : ℕ) :
    let ended := publishTrained env n positions samples s
    (∃ f, env.catalog.answers positions.keys = .error f ∧ ended.1 = .error (.build (.catalog f)) ∧
        ended.2.engine.published = e.published) ∨
      (env.catalog.answers positions.keys = .ok () ∧ Reported env m samples ended) := by
  have hpositions : m.positions = positions := by
    unfold Model.make at hm
    split at hm
    · obtain rfl := Except.ok.inj hm
      rfl
    · cases hm
  have hpublished := publish_answers hcalm hs (onGrid_of_make hp hm)
  have hspec := publish_spec hu m
  rw [hpositions] at hpublished
  unfold publishTrained
  rw [hm]
  dsimp only
  generalize publish env m s = published at hpublished hspec ⊢
  generalize env.catalog.answers positions.keys = answers at hpublished ⊢
  obtain ⟨r, t⟩ := published
  cases answers with
  | error f =>
    obtain rfl : r = .error (.build (.catalog f)) := hpublished
    obtain ⟨-, hkept⟩ | ⟨htrue, -⟩ := hspec
    · exact .inl ⟨f, rfl, rfl, hkept.published⟩
    · cases htrue
  | ok =>
    obtain rfl : r = .ok true := hpublished
    obtain ⟨hnot, -⟩ | ⟨-, hreleased, -⟩ := hspec
    · exact absurd rfl hnot
    obtain ⟨p, hp, rfl, -⟩ := hreleased.published
    have hmodel : t.engine.model? = some p.model := by rw [Engine.model?, hp]; rfl
    refine .inr ⟨rfl, ?_⟩
    dsimp only
    unfold reportMetrics
    cases hreport : env.tracker.metrics ⟨samples, p.model.network.medianNeighborDistance⟩ with
    | failed => exact ⟨⟨hmodel, .inr ⟨rfl, samples, hreport⟩⟩, by rw [if_pos hreport]⟩
    | idle => exact ⟨⟨hmodel, .inl rfl⟩, by rw [hreport]; rfl⟩
    | done => exact ⟨⟨hmodel, .inl rfl⟩, by rw [hreport]; rfl⟩

/-! ### Two trainings on the same samples -/

/-- The two loads are under way, on samples that have been collected, and nobody cancels. -/
structure SideBySide (env env' : Surroundings) (e e' : Engine) (d d' : Disk) (s s' : Session) :
    Prop where
  calm : Calm env e
  calm' : Calm env' e'
  underway : Underway env e d true s
  underway' : Underway env' e' d' true s'

lemma SideBySide.isCancelled (h : SideBySide env env' e e' d d' s s') :
    s.isCancelled = false ∧ s'.isCancelled = false :=
  ⟨h.calm.course h.underway.toCourse, h.calm'.course h.underway'.toCourse⟩

def Keeps (e : Engine) (ended : Except Fault (Option Model) × Session) : Prop :=
  (∀ m, ended.1 ≠ .ok (some m)) ∧ ended.2.engine.published = e.published

/-- Two trainings end alike: with the same result, and both have published the same model,
or none. -/
structure EndLike (env env' : Surroundings) (e e' : Engine)
    (ended ended' : Except Fault (Option Model) × Session) : Prop where
  result : ended.1 = ended'.1
  published : (∃ m, Yields env m ended ∧ Yields env' m ended') ∨ (Keeps e ended ∧ Keeps e' ended')

lemma SideBySide.error (h : SideBySide env env' e e' d d' s s') (f : Fault) :
    EndLike env env' e e' (.error f, s) (.error f, s') :=
  ⟨rfl, .inr ⟨⟨nofun, h.underway.published⟩, ⟨nofun, h.underway'.published⟩⟩⟩

lemma SideBySide.none (h : SideBySide env env' e e' d d' s s') :
    EndLike env env' e e' (.ok none, s) (.ok none, s') :=
  ⟨rfl, .inr ⟨⟨nofun, h.underway.published⟩, ⟨nofun, h.underway'.published⟩⟩⟩

/-- Trackers fail alike to report on models. -/
def MutesAlike (env env' : Surroundings) : Prop :=
  ∀ metrics, env.tracker.metrics metrics = .failed ↔ env'.tracker.metrics metrics = .failed

lemma Reported.endLike (hmutes : MutesAlike env env') {m : Model} {samples : ℕ}
    {ended ended' : Except Fault (Option Model) × Session} (h : Reported env m samples ended)
    (h' : Reported env' m samples ended') : EndLike env env' e e' ended ended' := by
  refine ⟨?_, .inl ⟨m, h.yields, h'.yields⟩⟩
  rw [h.result, h'.result]
  exact if_congr (hmutes _) rfl rfl

lemma publishTrained_alike (h : SideBySide env env' e e' d d' s s') (hmutes : MutesAlike env env')
    {n : Network} {positions : TrackPositions} (hholds : n.grid.Holds positions)
    (halike : ∀ track ∈ positions.keys, env.catalog.AnswersAlike env'.catalog track) (samples : ℕ) :
    EndLike env env' e e' (publishTrained env n positions samples s)
      (publishTrained env' n positions samples s') := by
  obtain ⟨hs, hs'⟩ := h.isCancelled
  cases hm : Model.make n positions with
  | error err =>
    unfold publishTrained
    rw [hm]
    exact h.error _
  | ok m =>
    have hsame := Catalog.answers_congr halike
    obtain ⟨f, hf, hfailed, hkept⟩ | ⟨hok, hreported⟩ :=
      publishTrained_answers h.calm.meanwhile h.underway hs hholds hm samples
    · obtain ⟨f', hf', hfailed', hkept'⟩ | ⟨hok', -⟩ :=
        publishTrained_answers h.calm'.meanwhile h.underway' hs' hholds hm samples
      · obtain rfl : f = f' := Except.error.inj (hf.symm.trans (hsame.trans hf'))
        exact ⟨hfailed.trans hfailed'.symm,
          .inr ⟨⟨fun m => by simp [hfailed], hkept⟩, ⟨fun m => by simp [hfailed'], hkept'⟩⟩⟩
      · cases hf.symm.trans (hsame.trans hok')
    · obtain ⟨f', hf', -⟩ | ⟨-, hreported'⟩ :=
        publishTrained_answers h.calm'.meanwhile h.underway' hs' hholds hm samples
      · cases hok.symm.trans (hsame.trans hf')
      · exact hreported.endLike hmutes hreported'

lemma conclude_alike (h : SideBySide env env' e e' d d' s s') (hmutes : MutesAlike env env')
    (n : Network) {rows : List Sample}
    (halike : ∀ row ∈ rows, env.catalog.AnswersAlike env'.catalog row.1) (samples : ℕ) :
    EndLike env env' e e' (conclude env n rows samples s) (conclude env' n rows samples s') := by
  obtain ⟨hs, hs'⟩ := h.isCancelled
  unfold conclude
  split
  · exact h.none
  · have hplaced : (classify n rows ∅ s).1 = (classify n rows ∅ s').1 := by
      obtain ⟨-, hoff⟩ | ⟨-, hoff⟩ | hsame := classify_agree n rows ∅ s s'
      · simp [hs] at hoff
      · simp [hs'] at hoff
      · exact hsame
    have hkept := (classify_eq (s := s) n rows ∅).1
    have hkept' := (classify_eq (s := s') n rows ∅).1
    have hpositions : ∀ positions, (classify n rows ∅ s).1 = .ok (some positions) →
        n.grid.Holds positions ∧
          ∀ track ∈ positions.keys, env.catalog.AnswersAlike env'.catalog track := by
      intro positions hclassified
      refine ⟨holds_of_classify hclassified, fun track htrack => ?_⟩
      obtain ⟨-, hkeys, -⟩ := classify_eq_ok hclassified
      obtain hnone | ⟨row, hrow, rfl⟩ := (hkeys track).1 (Std.ExtTreeMap.mem_keys.1 htrack)
      · exact absurd hnone Std.ExtTreeMap.not_mem_empty
      · exact halike row hrow
    generalize classify n rows ∅ s = placed at hplaced hkept hpositions ⊢
    generalize classify n rows ∅ s' = placed' at hplaced hkept' ⊢
    obtain ⟨r, t⟩ := placed
    obtain ⟨r', t'⟩ := placed'
    obtain rfl : r = r' := hplaced
    obtain rfl : t = s := hkept
    obtain rfl : t' = s' := hkept'
    rcases r with err | _ | positions
    · exact h.error err
    · exact h.none
    · obtain ⟨hholds, hanswers⟩ := hpositions positions rfl
      exact publishTrained_alike h hmutes hholds hanswers samples

lemma SideBySide.prepare (h : SideBySide env env' e e' d d' s s') (t : TrainSettings) (side : ℕ)
    (dimensions : Int) (samples : ℕ) :
    SideBySide env env' e e' d d' (prepare env t side dimensions samples s).2
      (prepare env' t side dimensions samples s').2 :=
  ⟨h.calm, h.calm', underway_prepare h.underway t side dimensions samples,
    underway_prepare h.underway' t side dimensions samples⟩

lemma SideBySide.train (h : SideBySide env env' e e' d d' s s') (n : Network)
    (vectors : List (List Float)) (iterations : Int) :
    SideBySide env env' e e' d d' (trainNetwork env n vectors iterations s).2
      (trainNetwork env' n vectors iterations s').2 :=
  ⟨h.calm, h.calm', underway_trainNetwork h.underway n vectors iterations,
    underway_trainNetwork h.underway' n vectors iterations⟩

/-- **Two trainings on the same samples end alike** if nobody cancels, the same fails and their
catalogs answer alike for the tracks of the samples. -/
lemma trainOn_alike (h : SideBySide env env' e e' d d' s s') (htrains : TrainsAs s.engine s'.engine)
    (hfails : FailsAs env env') (hmutes : MutesAlike env env') (t : TrainSettings)
    (dimensions : Int) {samples : List Sample}
    (halike : ∀ x ∈ samples, env.catalog.AnswersAlike env'.catalog x.1) :
    EndLike env env' e e' (trainOn env t dimensions samples s)
      (trainOn env' t dimensions samples s') := by
  obtain ⟨f, hfault⟩ | ⟨vectors, side, -, -, hstages⟩ := trainOn_stages t dimensions samples
  · rw [hfault, hfault]
    exact h.error f
  · have hrows : ∀ row ∈ (samples.map (·.1)).zip vectors,
        env.catalog.AnswersAlike env'.catalog row.1 := by
      intro row hrow
      obtain ⟨x, hx, hrow⟩ := List.mem_map.1 (List.of_mem_zip hrow).1
      rw [← hrow]
      exact halike x hx
    have hbegun := h.prepare t side dimensions samples.length
    obtain ⟨hmade, hdrawn⟩ := prepare_agree htrains hfails t side dimensions samples.length
    rw [hstages, hstages]
    generalize prepare env t side dimensions samples.length s = made at hmade hdrawn hbegun ⊢
    generalize prepare env' t side dimensions samples.length s' = made' at hmade hdrawn hbegun ⊢
    obtain ⟨r, v⟩ := made
    obtain ⟨r', v'⟩ := made'
    obtain rfl : r = r' := hmade
    cases r with
    | error err => exact hbegun.error err
    | ok n =>
      have hended := hbegun.train n vectors t.iterations
      have hagree := trainNetwork_agree hfails.fails hdrawn n vectors t.iterations
      dsimp only at hended hagree ⊢
      generalize trainNetwork env n vectors t.iterations v = trained at hended hagree ⊢
      generalize trainNetwork env' n vectors t.iterations v' = trained' at hended hagree ⊢
      -- no training is stopped, as nobody cancels
      obtain ⟨hcalm, hcalm'⟩ := hended.isCancelled
      obtain ⟨-, hoff⟩ | ⟨-, hoff⟩ | ⟨hresult, -⟩ := hagree
      · simp [hcalm] at hoff
      · simp [hcalm'] at hoff
      · obtain ⟨r, w⟩ := trained
        obtain ⟨r', w'⟩ := trained'
        obtain rfl : r = r' := hresult
        cases r with
        | error err => exact hended.error err
        | ok n => exact conclude_alike hended hmutes n hrows samples.length

lemma not_calledOff (hcalm : Calm env e) (hu : Underway env e d true s) (t : TrainSettings)
    (dimensions : Int) {samples : List Sample} (hne : samples ≠ []) :
    ¬ CalledOff (trainOn env t dimensions samples s) := by
  rintro ⟨hnone, hcancelled⟩
  have hended := trainOn_spec hu t dimensions samples hne
  generalize trainOn env t dimensions samples s = ended at hnone hcancelled hended
  cases hended with
  | calledOff s' hu' => simp [hcalm.course hu'.toCourse] at hcancelled
  | failed => cases hnone
  | released => cases hnone
  | unlogged => cases hnone

lemma generator_trainOn_alike (h : SideBySide env env' e e' d d' s s')
    (htrains : TrainsAs s.engine s'.engine) (hfails : FailsAs env env') (t : TrainSettings)
    (dimensions : Int) {samples : List Sample} (hne : samples ≠ []) :
    (trainOn env t dimensions samples s).2.engine.generator =
      (trainOn env' t dimensions samples s').2.engine.generator := by
  obtain hoff | hoff | ⟨hdrawn, -⟩ := trainOn_agree htrains hfails t dimensions samples
  · exact absurd hoff (not_calledOff h.calm h.underway t dimensions hne)
  · exact absurd hoff (not_calledOff h.calm' h.underway' t dimensions hne)
  · exact hdrawn

/-! ### The same usable tracks -/

/-- Two catalogs with sources have the same usable tracks with the same vectors in the same order,
and answer alike for them. Every other track is listed by one of them only, or by both, wherever it
is; it has no values, or the wrong number of them. -/
structure SameUsable (env env' : Surroundings) (r : Registry) (d d' : Disk)
    (names : List FeatureName) (tracks tracks' : List Int) : Prop where
  listed : env.listed.trackIds = .ok tracks
  listed' : env'.listed.trackIds = .ok tracks'
  fetched : ∀ track ∈ tracks, ∃ values, (env.source.fetch d track names).result = .ok values
  fetched' : ∀ track ∈ tracks', ∃ values, (env'.source.fetch d' track names).result = .ok values
  samples : usableSamples env.source r d names tracks = usableSamples env'.source r d' names tracks'
  alike : ∀ x ∈ usableSamples env.source r d names tracks,
    env.catalog.AnswersAlike env'.catalog x.1

lemma collectSamples_usable {tracks : List Int} {names : List FeatureName} (hcalm : Calm env e)
    (htracks : env.listed.trackIds = .ok tracks) (hengine : s.engine = e) (hnone : s.fetched = [])
    (hknown : ∀ name ∈ names, ∃ n, e.registry.dimensions name = .ok n)
    (hfetched : ∀ track ∈ tracks,
      ∃ values, (env.source.fetch s.disk track names).result = .ok values) :
    (collectSamples env names s).1 =
      .ok (some (usableSamples env.source e.registry s.disk names tracks)) := by
  obtain ⟨⟨k, -, hby⟩, -⟩ | ⟨track, htrack, f, hfails, -⟩ | ⟨-, hall⟩ :=
    collected_of_begun htracks names hengine hnone
  · obtain h | h | ⟨j, -, h⟩ := hby
    · simp [hcalm.before] at h
    · simp [hcalm.meanwhile] at h
    · simp [hcalm.meanwhile] at h
  · obtain ⟨values, hvalues⟩ := hfetched track htrack
    obtain ⟨err, herr, -⟩ | ⟨found, err, -, herr, -⟩ := hfails
    · cases hvalues.symm.trans herr
    · obtain ⟨v, hv⟩ := exists_inputVector found hknown
      cases hv.symm.trans herr
  · exact hall

lemma exists_dimensions {r : Registry} {names : List FeatureName} {n : Int}
    (h : totalDimensions r names = .ok n) : ∀ name ∈ names, ∃ n, r.dimensions name = .ok n := by
  obtain ⟨sizes, hsizes, -⟩ := bind_eq_ok.1 h
  exact fun name hname => exists_of_mapM_eq_ok hsizes name (mem_orderedNames.2 hname)

/-- Engines that are configured alike, with the generator in the same state. -/
structure ConfiguredAs (a b : Engine) : Prop where
  settings : a.settings = b.settings
  registry : a.registry = b.registry
  defaults : a.defaults = b.defaults
  generator : a.generator = b.generator

lemma ConfiguredAs.collected (h : ConfiguredAs s.engine s'.engine) (names : List FeatureName) :
    TrainsAs (collectSamples env names s).2.engine (collectSamples env' names s').2.engine := by
  obtain ⟨c, hc⟩ := engine_collectSamples env names s
  obtain ⟨c', hc'⟩ := engine_collectSamples env' names s'
  rw [hc, hc']
  exact ⟨h.generator, h.registry, congrArg (·.rate) h.settings, congrArg (·.radius) h.settings⟩

/-- A training has published a model, whether or not it could be reported on. -/
def Brings (env : Surroundings) (m : Model)
    (ended : Except Fault (Outcome × Option Model) × Session) : Prop :=
  ended.2.engine.model? = some m ∧
    (ended.1 = .ok (.trained, some m) ∨ ended.1 = .error .tracker ∧ Unlogged env m)

/-- A training has failed or has come to no model, and has published nothing. -/
def BringsNone (e : Engine) (ended : Except Fault (Outcome × Option Model) × Session) : Prop :=
  ((∃ f, ended.1 = .error f) ∨ ∃ o, ended.1 = .ok (o, none) ∧ Unsettled (.ok o)) ∧
    ended.2.engine.published = e.published

lemma Yields.brings {m : Model} {x : Attempt} (h : Yields x.env m x.ended) :
    Brings x.env m x.outcome := by
  refine ⟨by rw [x.engine_outcome]; exact h.1, ?_⟩
  obtain ⟨-, hended⟩ := h
  unfold Attempt.outcome
  generalize x.ended = ended at hended ⊢
  obtain ⟨r, t⟩ := ended
  obtain rfl | ⟨rfl, hmuted⟩ := hended
  · exact .inl rfl
  · exact .inr ⟨rfl, hmuted⟩

lemma Keeps.bringsNone {x : Attempt} (h : Keeps e x.ended) : BringsNone e x.outcome := by
  refine ⟨?_, by rw [x.engine_outcome]; exact h.2⟩
  obtain ⟨hnone, -⟩ := h
  unfold Attempt.outcome
  generalize x.ended = ended at hnone ⊢
  obtain ⟨r, t⟩ := ended
  rcases r with err | _ | m
  · exact .inl ⟨err, rfl⟩
  · exact .inr ⟨.cancelled, rfl, .inl rfl⟩
  · exact absurd rfl (hnone m)

/-- Attempts to train have alike outcomes if what they come to is alike. -/
lemma EndLike.outcome {x y : Attempt} (h : EndLike x.env y.env e e' x.ended y.ended) :
    x.outcome.1 = y.outcome.1 ∧
      ((∃ m, Brings x.env m x.outcome ∧ Brings y.env m y.outcome) ∨
        (BringsNone e x.outcome ∧ BringsNone e' y.outcome)) := by
  refine ⟨?_, ?_⟩
  · have hresult := h.result
    unfold Attempt.outcome
    generalize x.ended = ended at hresult ⊢
    generalize y.ended = ended' at hresult ⊢
    obtain ⟨r, t⟩ := ended
    obtain ⟨r', t'⟩ := ended'
    obtain rfl : r = r' := hresult
    rcases r with err | _ | m <;> rfl
  · obtain ⟨m, hm, hm'⟩ | ⟨hkept, hkept'⟩ := h.published
    · exact .inl ⟨m, hm.brings, hm'.brings⟩
    · exact .inr ⟨hkept.bringsNone, hkept'.bringsNone⟩

/-- **Two trainings with the same usable tracks** come to the same result, leave the generator in
the same state, and both publish the same model or none. -/
lemma train_alike (hcalm : Calm env e) (hcalm' : Calm env' e') (hu : Underway env e d false s)
    (hu' : Underway env' e' d' false s') (hengine : s.engine = e) (hengine' : s'.engine = e')
    (hnone : s.fetched = []) (hnone' : s'.fetched = []) (hconfigured : ConfiguredAs e e')
    (hfails : FailsAs env env') (hmutes : MutesAlike env env') (t : TrainSettings)
    {tracks tracks' : List Int}
    (hsame : SameUsable env env' e.registry d d' (orderedNames t.features.names) tracks tracks') :
    let ended := Engine.train env t s
    let ended' := Engine.train env' t s'
    ended.1 = ended'.1 ∧ ended.2.engine.generator = ended'.2.engine.generator ∧
      ((∃ m, Brings env m ended ∧ Brings env' m ended') ∨
        (BringsNone e ended ∧ BringsNone e' ended')) := by
  have hconfigured' : ConfiguredAs s.engine s'.engine := by rwa [hengine, hengine']
  unfold Engine.train
  dsimp only
  rw [← hconfigured'.registry]
  cases hdimensions : totalDimensions s.engine.registry (orderedNames t.features.names) with
  | error err =>
    exact ⟨rfl, hconfigured'.generator,
      .inr ⟨⟨.inl ⟨_, rfl⟩, hu.published⟩, ⟨.inl ⟨_, rfl⟩, hu'.published⟩⟩⟩
  | ok dimensions =>
    have hknown : ∀ name ∈ orderedNames t.features.names, ∃ n, e.registry.dimensions name = .ok n :=
      hengine ▸ exists_dimensions hdimensions
    have hcollected := collectSamples_usable hcalm hsame.listed hengine hnone hknown
      (hu.disk.symm ▸ hsame.fetched)
    have hcollected' := collectSamples_usable hcalm' hsame.listed' hengine' hnone'
      (hconfigured.registry ▸ hknown) (hu'.disk.symm ▸ hsame.fetched')
    rw [hu.disk] at hcollected
    rw [hu'.disk, ← hconfigured.registry, ← hsame.samples] at hcollected'
    have htrains : TrainsAs (collectSamples env (orderedNames t.features.names) s).2.engine
        (collectSamples env' (orderedNames t.features.names) s').2.engine :=
      hconfigured'.collected _
    have hbegun : SideBySide env env' e e' d d'
        (collectSamples env (orderedNames t.features.names) s).2
        (collectSamples env' (orderedNames t.features.names) s').2 :=
      ⟨hcalm, hcalm', underway_collectSamples hu _, underway_collectSamples hu' _⟩
    have halike := hsame.alike
    generalize usableSamples env.source e.registry d (orderedNames t.features.names) tracks =
      samples at hcollected hcollected' halike
    generalize collectSamples env (orderedNames t.features.names) s = collected
      at hcollected htrains hbegun ⊢
    generalize collectSamples env' (orderedNames t.features.names) s' = collected'
      at hcollected' htrains hbegun ⊢
    obtain ⟨r, u⟩ := collected
    obtain ⟨r', u'⟩ := collected'
    obtain rfl : r = .ok (some samples) := hcollected
    obtain rfl : r' = .ok (some samples) := hcollected'
    cases samples with
    | nil =>
      have hnone : Unsettled (.ok .noTrainableData) := .inr (.inl rfl)
      exact ⟨rfl, htrains.generator, .inr ⟨⟨.inr ⟨_, rfl, hnone⟩, hbegun.underway.published⟩,
        ⟨.inr ⟨_, rfl, hnone⟩, hbegun.underway'.published⟩⟩⟩
    | cons row rows =>
      -- both come to an attempt to train
      let x : Attempt := ⟨env, t, dimensions, row :: rows, u⟩
      let y : Attempt := ⟨env', t, dimensions, row :: rows, u'⟩
      have hended : EndLike x.env y.env e e' x.ended y.ended :=
        trainOn_alike hbegun htrains hfails hmutes t dimensions halike
      have hdrawn : x.ended.2.engine.generator = y.ended.2.engine.generator :=
        generator_trainOn_alike hbegun htrains hfails t dimensions (List.cons_ne_nil row rows)
      rw [← x.engine_outcome, ← y.engine_outcome] at hdrawn
      obtain ⟨hresult, hpublished⟩ := hended.outcome
      exact ⟨hresult, hdrawn, hpublished⟩

/-! ### The same calls -/

variable {call : Call}

/-- A call ends with the model to which its training has come, even if it fails later. -/
lemma Concluded.of_brings {m : Model} {result : Except Fault (Outcome × Option Model) × Session}
    {ended : Except Fault Outcome × Session} (h : Concluded env call d result ended)
    (hm : Brings env m result) : ended.2.engine.model? = some m ∧
      (ended.1 = .ok .trained ∨ FailsLate env call d m ended.1) := by
  obtain ⟨hmodel, hresult⟩ := hm
  refine ⟨h.engine ▸ hmodel, ?_⟩
  cases h with
  | failed f s =>
    obtain hok | ⟨herror, hmuted⟩ := hresult
    · cases hok
    · cases herror
      exact .inr (.unlogged hmuted)
  | ended o model s s' =>
    obtain hok | ⟨herror, -⟩ := hresult
    · cases hok
      exact .inl rfl
    · cases herror
  | unwritten o m' s r s' hr =>
    obtain hok | ⟨herror, -⟩ := hresult
    · cases hok
      exact .inr hr
    · cases herror

/-- A call whose training has published nothing publishes nothing. -/
lemma Concluded.of_bringsNone {result : Except Fault (Outcome × Option Model) × Session}
    {ended : Except Fault Outcome × Session} (h : Concluded env call d result ended)
    (hnone : BringsNone e result) : ended.1 = result.1.map (·.1) ∧ Unsettled ended.1 ∧
      ended.2.engine.published = e.published := by
  obtain ⟨hresult, hkept⟩ := hnone
  refine and_assoc.1 ⟨?_, h.engine ▸ hkept⟩
  cases h with
  | failed f s => exact ⟨rfl, .inr (.inr ⟨f, rfl⟩)⟩
  | ended o model s s' =>
    obtain ⟨f, hf⟩ | ⟨o', ho, hunsettled⟩ := hresult
    · cases hf
    · cases ho
      exact ⟨rfl, hunsettled⟩
  | unwritten o m s r s' =>
    obtain ⟨f, hf⟩ | ⟨o', ho, -⟩ := hresult
    · cases hf
    · cases ho

/-- Whether a model can be written depends on nothing but the cache, the disk and the names. -/
lemma store_congr (hnames : env.names = env'.names) (hdisk : s.disk = s'.disk) (c : ModelCache)
    (m : Model) : (store env c m s).1 = (store env' c m s').1 := by
  unfold store
  dsimp only
  rw [hnames, hdisk]
  split
  · rfl
  · split <;> rfl

/-- **Two calls end alike** if their trainings come to the same result, on the same disk and with
the same cache. -/
lemma Call.train_congr (call : Call) {t : TrainSettings} (ht : call.settings? s.engine = some t)
    (ht' : call.settings? s'.engine = some t) (hcache : env.cache = env'.cache)
    (hnames : env.names = env'.names)
    (hresult : (Engine.train env t s).1 = (Engine.train env' t s').1)
    (hdisk : (Engine.train env t s).2.disk = (Engine.train env' t s').2.disk) :
    (call.train env s).1 = (call.train env' s').1 := by
  have hsettings {s : Session} {force : Bool}
      (h : (Call.load force).settings? s.engine = some t) :
      TrainSettings.ofSettings s.engine.settings s.engine.defaults = .ok t := by
    unfold Call.settings? at h
    cases hs : TrainSettings.ofSettings s.engine.settings s.engine.defaults with
    | error err => simp [hs, Except.toOption] at h
    | ok t' =>
      obtain rfl : t' = t := by simpa [hs, Except.toOption] using h
      rfl
  cases call with
  | cached m => cases ht
  | training t' =>
    obtain rfl := Option.some.inj ht
    rw [Call.train, Call.train]
    unfold loadFromTraining
    generalize Engine.train env t' s = ended at hresult ⊢
    generalize Engine.train env' t' s' = ended' at hresult ⊢
    obtain ⟨r, u⟩ := ended
    obtain ⟨r', u'⟩ := ended'
    obtain rfl : r = r' := hresult
    cases r <;> rfl
  | load force =>
    rw [Call.train, Call.train]
    unfold loadByTraining
    rw [hsettings ht, hsettings ht', hcache]
    dsimp only
    generalize Engine.train env t s = ended at hresult hdisk ⊢
    generalize Engine.train env' t s' = ended' at hresult hdisk ⊢
    obtain ⟨r, u⟩ := ended
    obtain ⟨r', u'⟩ := ended'
    obtain rfl : r = r' := hresult
    rcases r with err | ⟨o, _ | m⟩
    · rfl
    · rfl
    · cases env'.cache with
      | none => rfl
      | some c =>
        have hstored := store_congr hnames hdisk c m
        dsimp only
        generalize store env c m u = stored at hstored ⊢
        generalize store env' c m u' = stored' at hstored ⊢
        obtain ⟨r, v⟩ := stored
        obtain ⟨r', v'⟩ := stored'
        obtain rfl : r = r' := hstored
        cases r <;> rfl

lemma ConfiguredAs.settings? (h : ConfiguredAs e e') (call : Call) :
    call.settings? e = call.settings? e' := by
  cases call with
  | load force => rw [Call.settings?, Call.settings?, h.settings, h.defaults]
  | _ => rfl

/-- Both of two calls come to the same model, or both end for the same reason without one. -/
def EndAlike (env env' : Surroundings) (call : Call) (e e' : Engine) (d d' : Disk)
    (ended ended' : Except Fault Outcome × Session) : Prop :=
  (∃ m, ended.2.engine.model? = some m ∧ ended'.2.engine.model? = some m ∧
      (ended.1 = .ok .trained ∨ FailsLate env call (clearedDisk env call d) m ended.1) ∧
      (ended'.1 = .ok .trained ∨ FailsLate env' call (clearedDisk env' call d') m ended'.1)) ∨
    (ended.1 = ended'.1 ∧ Unsettled ended.1 ∧ ended.2.engine.published = e.published ∧
      ended'.2.engine.published = e'.published)

lemma not_unsettled_trained : ¬ Unsettled (.ok .trained) := by
  rintro (h | h | ⟨f, h⟩) <;> cases h

/-- **Unusable tracks leave no trace.** Two engines that are configured alike, with the generator in
the same state, train with the same usable tracks, and nobody cancels. Whatever other tracks there
are, and wherever, they draw the same from the generator; and both come to the same model, or both
end for the same reason without one. Only their caches can make a difference after that, by refusing
the model. -/
theorem unusable_tracks_leave_no_trace (hgo : call.GoesOn env d) (hgo' : call.GoesOn env' d')
    (hcalm : Calm env e) (hcalm' : Calm env' e') (hconfigured : ConfiguredAs e e')
    (hfails : FailsAs env env') (hmutes : MutesAlike env env') {tracks tracks' : List Int}
    (hsame : ∀ t, call.settings? e = some t → SameUsable env env' e.registry
      (clearedDisk env call d) (clearedDisk env' call d') (orderedNames t.features.names)
      tracks tracks') :
    let ended := call.run env (Session.start e d)
    let ended' := call.run env' (Session.start e' d')
    ended.2.engine.generator = ended'.2.engine.generator ∧
      EndAlike env env' call e e' d d' ended ended' ∧
      (env.cache = env'.cache → env.names = env'.names → d = d' → ended.1 = ended'.1) := by
  intro ended ended'
  obtain ⟨s, hrun, rfl, hu, hnone⟩ := hgo.run e
  obtain ⟨s', hrun', rfl, hu', hnone'⟩ := hgo'.run e'
  have hended : ended = call.train env s := hrun
  have hended' : ended' = call.train env' s' := hrun'
  have hsettings := hconfigured.settings? call
  rw [hended, hended']
  obtain ⟨err, herr, hinvalid, hfailed⟩ | ⟨t, ht, hconcluded⟩ := hgo.concluded hu
  · obtain ⟨err', herr', -, hfailed'⟩ | ⟨t, ht, -⟩ := hgo'.concluded hu'
    · rw [hconfigured.settings, hconfigured.defaults] at herr
      obtain rfl : err = err' := Except.error.inj (herr.symm.trans herr')
      rw [hfailed, hfailed']
      exact ⟨hconfigured.generator, .inr ⟨rfl, .inr (.inr ⟨_, rfl⟩), rfl, rfl⟩, fun _ _ _ => rfl⟩
    · rw [← hsettings, hinvalid] at ht
      cases ht
  · have ht' : call.settings? s'.engine = some t := hsettings ▸ ht
    have hconcluded' : Concluded env' call (clearedDisk env' call d') (Engine.train env' t s')
        (call.train env' s') := by
      obtain ⟨-, -, hinvalid, -⟩ | ⟨t', ht'', hconcluded'⟩ := hgo'.concluded hu'
      · cases ht'.symm.trans hinvalid
      · obtain rfl : t = t' := Option.some.inj (ht'.symm.trans ht'')
        exact hconcluded'
    obtain ⟨hresult, hdrawn, hpublished⟩ := train_alike hcalm hcalm' hu hu' rfl rfl hnone hnone'
      hconfigured hfails hmutes t (hsame t ht)
    refine ⟨?_, ?_, fun hcache hnames hdisk => ?_⟩
    · rw [hconcluded.engine, hconcluded'.engine, hdrawn]
    · obtain ⟨m, hm, hm'⟩ | ⟨hkept, hkept'⟩ := hpublished
      · obtain ⟨hmodel, hends⟩ := hconcluded.of_brings hm
        obtain ⟨hmodel', hends'⟩ := hconcluded'.of_brings hm'
        exact .inl ⟨m, hmodel, hmodel', hends, hends'⟩
      · obtain ⟨hends, hunsettled, hpublished⟩ := hconcluded.of_bringsNone hkept
        obtain ⟨hends', -, hpublished'⟩ := hconcluded'.of_bringsNone hkept'
        refine .inr ⟨?_, hunsettled, hpublished, hpublished'⟩
        rw [hends, hends', hresult]
    · have hcleared : clearedDisk env call d = clearedDisk env' call d' := by
        unfold clearedDisk
        rw [hcache, hdisk]
      refine call.train_congr ht ht' hcache hnames hresult ?_
      rw [disk_train hu t, disk_train hu' t, hcleared]

/-- The one track among others: the first has no values, the last has one too many. -/
def crowdedSurroundings : Surroundings :=
  { soloSurroundings with
    listed := { soloSurroundings.listed with trackIds := .ok [3, 7, 9] }
    catalog := { soloSurroundings.catalog with trackIds := .ok [3, 7, 9] }
    source := .ofTable [(7, [(.chars "loudness", [1.0])]), (9, [(.chars "loudness", [0.5, 2.0])])] }

lemma exists_fetch_ofTable (table : List (Int × Values)) (d : Disk) (track : Int)
    (names : List FeatureName) :
    ∃ values, ((Source.ofTable table).fetch d track names).result = .ok values := by
  simp only [Source.ofTable]
  cases table.lookup track <;> exact ⟨_, rfl⟩

lemma sameUsable_crowded : SameUsable soloSurroundings crowdedSurroundings soloEngine.registry
    Disk.empty Disk.empty (orderedNames soloTraining.features.names) [7] [3, 7, 9] where
  listed := rfl
  listed' := rfl
  fetched track _ := exists_fetch_ofTable _ _ track _
  fetched' track _ := exists_fetch_ofTable _ _ track _
  samples := rfl
  alike _ _ := rfl

theorem unusable_tracks_leave_no_trace_solo :
    (Call.load false).GoesOn soloSurroundings Disk.empty ∧
      (Call.load false).GoesOn crowdedSurroundings Disk.empty ∧
      Calm soloSurroundings soloEngine ∧ Calm crowdedSurroundings soloEngine ∧
      ConfiguredAs soloEngine soloEngine ∧ FailsAs soloSurroundings crowdedSurroundings ∧
      MutesAlike soloSurroundings crowdedSurroundings ∧
      (∀ t, (Call.load false).settings? soloEngine = some t →
        SameUsable soloSurroundings crowdedSurroundings soloEngine.registry
          (clearedDisk soloSurroundings (.load false) Disk.empty)
          (clearedDisk crowdedSurroundings (.load false) Disk.empty)
          (orderedNames t.features.names) [7] [3, 7, 9]) ∧
      ∃ t t' m,
        (Call.load false).run soloSurroundings (Session.start soloEngine Disk.empty) =
          (.ok .trained, t) ∧
        (Call.load false).run crowdedSurroundings (Session.start soloEngine Disk.empty) =
          (.ok .trained, t') ∧
        t.engine.model? = some m ∧ t'.engine.model? = some m := by
  have hgo : (Call.load false).GoesOn soloSurroundings Disk.empty :=
    .missed ModelCache.soleCache rfl rfl
  have hgo' : (Call.load false).GoesOn crowdedSurroundings Disk.empty :=
    .missed ModelCache.soleCache rfl rfl
  have hcalm : Calm soloSurroundings soloEngine := ⟨rfl, fun _ => rfl⟩
  have hcalm' : Calm crowdedSurroundings soloEngine := ⟨rfl, fun _ => rfl⟩
  have hconfigured : ConfiguredAs soloEngine soloEngine := ⟨rfl, rfl, rfl, rfl⟩
  have hfails : FailsAs soloSurroundings crowdedSurroundings := ⟨rfl, rfl, rfl⟩
  have hmutes : MutesAlike soloSurroundings crowdedSurroundings := fun _ => Iff.rfl
  have hsame : ∀ t, (Call.load false).settings? soloEngine = some t →
      SameUsable soloSurroundings crowdedSurroundings soloEngine.registry
        (clearedDisk soloSurroundings (.load false) Disk.empty)
        (clearedDisk crowdedSurroundings (.load false) Disk.empty)
        (orderedNames t.features.names) [7] [3, 7, 9] := by
    intro t ht
    have hsettings : (Call.load false).settings? soloEngine = some soloTraining := rfl
    obtain rfl : soloTraining = t := Option.some.inj (hsettings.symm.trans ht)
    exact sameUsable_crowded
  obtain ⟨t, hload, -⟩ := load_solo
  have hrun : (Call.load false).run soloSurroundings (Session.start soloEngine Disk.empty) =
      (.ok .trained, t) := hload
  obtain ⟨-, halike, hended⟩ :=
    unusable_tracks_leave_no_trace hgo hgo' hcalm hcalm' hconfigured hfails hmutes hsame
  have hended := hended rfl rfl rfl
  rw [hrun] at halike hended
  obtain ⟨m, hm, hm', -⟩ | ⟨-, hunsettled, -⟩ := halike
  · refine ⟨hgo, hgo', hcalm, hcalm', hconfigured, hfails, hmutes, hsame, t, ?_, m, hrun,
      ?_, hm, ?_⟩
    · exact ((Call.load false).run crowdedSurroundings (Session.start soloEngine Disk.empty)).2
    · exact Prod.ext hended.symm rfl
    · exact hm'
  · exact absurd hunsettled not_unsettled_trained

end Engine

end SoundAtlas
