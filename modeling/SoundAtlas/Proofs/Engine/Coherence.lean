import SoundAtlas.Proofs.Cache.RoundTrip
import SoundAtlas.Proofs.Engine.Twins

/-!
Engines and their cache. A model that an engine has trained is written to its cache, and every other
engine on the same cache comes to it without a look at any feature, and gives the same answers.
Nothing but training writes to the cache, and later loads find it as it was.
-/

namespace SoundAtlas.Engine

/-! ### Loading what is cached -/

section Cached

variable {env : Surroundings} {e : Engine} {d : Disk} {s : Session} {c : ModelCache} {m : Model}
  {p : Published}

structure Kept (s t : Session) : Prop where
  disk : t.disk = s.disk
  fetched : t.fetched = s.fetched
  warnings : t.warnings = s.warnings
  settings : t.engine.settings = s.engine.settings

lemma Kept.lookUp {t : Session} (h : Kept s t) : Kept s ((buildWatch env).lookUp t) := by
  have hmeet : (t.meet env (.lookUp t.lookUps)).engine.settings = t.engine.settings ∧
      (t.meet env (.lookUp t.lookUps)).warnings = t.warnings := by
    unfold Session.meet
    split <;> exact ⟨rfl, rfl⟩
  refine ⟨?_, ?_, hmeet.2.trans h.warnings, hmeet.1.trans h.settings⟩
  · simpa [buildWatch] using h.disk
  · simpa [buildWatch] using h.fetched

lemma publish_kept (env : Surroundings) (m : Model) (s : Session) : Kept s (publish env m s).2 := by
  have hkept : Kept s (ModelIndex.addTracks env.catalog (buildWatch env) m.positions.toList
      (.empty m.network.grid.width m.network.grid.height) s).2 :=
    ModelIndex.addTracks_watcher (fun _ h => h) (fun _ h => h.lookUp) ⟨rfl, rfl, rfl, rfl⟩
  unfold publish ModelIndex.build
  split <;> rename_i heq <;> rw [heq] at hkept
  · exact hkept
  · exact hkept
  · exact ⟨hkept.disk, hkept.fetched, hkept.warnings, hkept.settings⟩

lemma adopt_kept (env : Surroundings) (m : Model) (s : Session) : Kept s (adopt env m s).2 := by
  have hkept := publish_kept env m s
  unfold adopt
  split <;> rename_i heq <;> rw [heq] at hkept <;> exact hkept

/-- Nobody cancels loading, neither before a load nor meanwhile. -/
structure Calm (env : Surroundings) (e : Engine) : Prop where
  before : e.cancelRequested = false
  meanwhile : ∀ ev, env.cancels ev = false

lemma buildWatch_calm (hcalm : ∀ ev, env.cancels ev = false) (t : Session)
    (ht : t.isCancelled = false) : ((buildWatch env).poll t).1 = false ∧
      ((buildWatch env).lookUp ((buildWatch env).poll t).2).isCancelled = false := by
  refine ⟨ht, ?_⟩
  have hmeet : (t.meet env (.lookUp t.lookUps)).isCancelled = false := by
    rw [Session.meet, if_neg (by simp [hcalm]), ht]
  exact hmeet

/-- **A model whose indices can be built is published**, unless somebody cancels. -/
lemma publish_calm (hs : s.isCancelled = false) (hcalm : ∀ ev, env.cancels ev = false)
    {index : ModelIndex} (hindex : ModelIndex.build m.network.grid.width m.network.grid.height
      m.positions env.catalog ModelIndex.quiet () = (.ok (some index), ())) :
    (publish env m s).1 = .ok true := by
  have hbuilt := ModelIndex.addTracks_of_quiet (buildWatch_calm hcalm) hs hindex
  unfold publish ModelIndex.build
  generalize ModelIndex.addTracks env.catalog (buildWatch env) m.positions.toList
    (.empty m.network.grid.width m.network.grid.height) s = built at hbuilt
  obtain ⟨r, t⟩ := built
  obtain rfl : r = .ok (some index) := hbuilt
  rfl

lemma adopt_of_publish (h : (publish env m s).1 = .ok true) :
    (adopt env m s).1 = .ok .loadedFromCache := by
  unfold adopt
  generalize publish env m s = published at h
  obtain ⟨r, t⟩ := published
  obtain rfl : r = .ok true := h
  rfl

lemma load_of_read (hc : env.cache = some c) (hr : (c.read d).1 = .ok (some m)) (e : Engine) :
    load env false (Session.start e d) =
      adopt env m ((Session.start e d).warn ((c.read d).2.map .cache)) := by
  have hdisk : (Session.start e d).disk = d := rfl
  unfold load
  rw [hc]
  dsimp only
  rw [hdisk, hr]

/-- How a load ends that finds a cached model: no feature has been looked at, disk and settings are
as they were, and the engine has what it had before, or a twin of the model. -/
structure Found (e : Engine) (d : Disk) (p : Published) (r : Except Fault Outcome) (t : Session) :
    Prop where
  disk : t.disk = d
  fetched : t.fetched = []
  settings : t.engine.settings = e.settings
  published : (r ≠ .ok .loadedFromCache ∧ t.engine.published = e.published) ∨
    ∃ p', t.engine.published = some p' ∧ p.Twin p'

lemma found_of_read (hc : env.cache = some c) (hr : (c.read d).1 = .ok (some p.model.restored))
    (hp : p.Complete env.catalog) (e : Engine) :
    Found e d p (load env false (Session.start e d)).1 (load env false (Session.start e d)).2 := by
  have hu := (underway_start env e d).warn ((c.read d).2.map .cache)
  have hkept := adopt_kept env p.model.restored
    ((Session.start e d).warn ((c.read d).2.map .cache))
  rw [load_of_read hc hr]
  refine ⟨hkept.disk, hkept.fetched, hkept.settings, ?_⟩
  obtain ⟨hunsettled, listed, hkept⟩ | ⟨-, hrel⟩ :=
    (adopt_end hu p.model.restored (.load false)).of_given
  · refine .inl ⟨fun hloaded => ?_, hkept.published⟩
    rw [hloaded] at hunsettled
    exact not_unsettled_loadedFromCache hunsettled
  · obtain ⟨p', hp', hmodel, hcomplete⟩ := hrel.published
    exact .inr ⟨p', hp', hp.twin hcomplete (by rw [hmodel]; rfl)⟩

/-- **A load of a cached model changes no engine that has it**, nor the disk. -/
lemma Mirrors.reload {a x : Engine} (hx : Mirrors p a x) (hc : env.cache = some c)
    (hr : (c.read d).1 = .ok (some p.model.restored)) (hp : p.Complete env.catalog) :
    (load env false (Session.start x d)).2.disk = d ∧
      Mirrors p a (load env false (Session.start x d)).2.engine := by
  have hfound := found_of_read hc hr hp x
  refine ⟨hfound.disk, hfound.settings.trans hx.settings, ?_⟩
  rcases hfound.published with ⟨-, hkept⟩ | htwin
  · rw [hkept]
    exact hx.published
  · exact htwin

/-- **Every calm load of a cached model publishes it** without a look at any feature. -/
lemma load_calm (hc : env.cache = some c) (hr : (c.read d).1 = .ok (some p.model.restored))
    (hp : p.Complete env.catalog) (hcalm : Calm env e) :
    ∃ t, load env false (Session.start e d) = (.ok .loadedFromCache, t) ∧ t.fetched = [] ∧
      t.disk = d ∧ t.engine.settings = e.settings ∧
      ∃ p', t.engine.published = some p' ∧ p.Twin p' := by
  have hfound := found_of_read hc hr hp e
  have hended : (load env false (Session.start e d)).1 = .ok .loadedFromCache := by
    rw [load_of_read hc hr]
    exact adopt_of_publish (publish_calm hcalm.before hcalm.meanwhile hp.index)
  refine ⟨_, Prod.ext hended rfl, hfound.fetched, hfound.disk, hfound.settings, ?_⟩
  rcases hfound.published with ⟨hne, -⟩ | htwin
  · exact absurd hended hne
  · exact htwin

def reloadAll (e : Engine) (d : Disk) : List Surroundings → Engine × Disk
  | [] => (e, d)
  | env :: envs =>
    let t := (load env false (Session.start e d)).2
    reloadAll t.engine t.disk envs

/-- **However often the cached model is loaded**, it stays as it is, in the cache and in every
engine that has it. -/
lemma Mirrors.reloadAll {a x : Engine} {catalog : Catalog} {envs : List Surroundings}
    (hx : Mirrors p a x) (hr : (c.read d).1 = .ok (some p.model.restored))
    (hp : p.Complete catalog) (henvs : ∀ env ∈ envs, env.cache = some c ∧ env.catalog = catalog) :
    (Engine.reloadAll x d envs).2 = d ∧ Mirrors p a (Engine.reloadAll x d envs).1 := by
  induction envs generalizing x with
  | nil => exact ⟨rfl, hx⟩
  | cons env envs ih =>
    obtain ⟨⟨hc, rfl⟩, henvs⟩ := List.forall_mem_cons.1 henvs
    obtain ⟨hdisk, hx'⟩ := hx.reload hc hr hp
    rw [Engine.reloadAll, hdisk]
    exact ih hx' henvs

end Cached

/-! ### Writing what has been trained -/

section Training

variable {env : Surroundings} {e : Engine} {d : Disk} {s t : Session} {c : ModelCache} {m : Model}

lemma publishTrained_eq_ok {n : Network} {positions : TrackPositions} {samples : Nat}
    (h : publishTrained env n positions samples s = (.ok (some m), t)) :
    m.network = n ∧ m.positions = positions ∧ t.engine = (publish env m s).2.engine := by
  unfold publishTrained Model.make at h
  split at h
  · cases h
  · rename_i m' hmake
    split at hmake
    · obtain rfl := Except.ok.inj hmake
      split at h
      · cases h
      · cases h
      · rename_i s' heq
        obtain ⟨⟨x, hx⟩, -⟩ := reportMetrics_spec env
          ⟨samples, n.medianNeighborDistance⟩ s'
        split at h
        · cases h
        · rename_i hreport
          cases h
          have hsame := (congrArg Prod.snd hreport).symm.trans hx
          exact ⟨rfl, rfl, (congrArg Session.engine hsame).trans (by rw [heq])⟩
    · cases hmake

lemma store_eq_ok (h : store env c m s = (.ok (), t)) (hw : .notCached ∉ t.warnings) :
    (c.write s.disk m env.names).1 = (.ok (), t.disk) ∧ t.engine = s.engine := by
  unfold store at h
  extract_lets written s' at h
  split at h
  · rename_i hwritten
    obtain rfl : t = s' := (congrArg Prod.snd h).symm
    exact ⟨Prod.ext hwritten rfl, rfl⟩
  · split at h
    · obtain rfl : t = s'.warn [.notCached] := (congrArg Prod.snd h).symm
      simp [Session.warn] at hw
    · cases h

/-- What a load leaves behind that has trained: a model on its grid, that has been published, and
that has been written to the cache on the disk. -/
structure Cached (env : Surroundings) (e : Engine) (c : ModelCache) (d : Disk) (t : Session)
    (p : Published) : Prop where
  published : t.engine.published = some p
  complete : p.Complete env.catalog
  onGrid : p.model.OnGrid
  settings : t.engine.settings = e.settings
  written : (c.write d p.model env.names).1 = (.ok (), t.disk)

lemma cached_of_loadByTraining (h : Underway env e d false s) (hc : env.cache = some c)
    (ht : loadByTraining env s = (.ok .trained, t)) (hw : .notCached ∉ t.warnings) :
    ∃ p, Cached env e c d t p := by
  unfold loadByTraining at ht
  split at ht
  · cases ht
  · rename_i ts _
    have hspec := train_spec h ts
    rw [hc] at ht
    generalize train env ts s = ended at ht hspec
    cases hspec with
    | failed => cases ht
    | calledOff => cases ht
    | noData => cases ht
    | unlogged => cases ht
    | released m s' hrel hund hgrid =>
      dsimp only at ht
      split at ht
      · cases ht
      · rename_i t' hstore
        cases ht
        obtain ⟨hwritten, hengine⟩ := store_eq_ok hstore hw
        obtain ⟨p, hp, rfl, hcomplete⟩ := hrel.published
        exact ⟨p, hengine ▸ hp, hcomplete, hgrid, hengine ▸ hrel.settings, hrel.disk ▸ hwritten⟩

/-- **A load that has trained has written its model**, if it does not warn of the opposite. -/
lemma cached_of_load (hc : env.cache = some c) {force : Bool}
    (ht : load env force (Session.start e d) = (.ok .trained, t)) (hw : .notCached ∉ t.warnings) :
    ∃ p, Cached env e c (clearedDisk env (.load force) d) t p := by
  have h := underway_start env e d
  unfold load at ht
  unfold clearedDisk
  rw [hc] at ht ⊢
  cases force with
  | true =>
    dsimp only at ht ⊢
    split at ht
    · cases ht
    · exact cached_of_loadByTraining (h.onDisk _) hc ht hw
  | false =>
    dsimp only at ht ⊢
    split at ht
    · cases ht
    · unfold adopt at ht
      split at ht <;> cases ht
    · exact cached_of_loadByTraining (h.warn _) hc ht hw

end Training

/-! ### Leaving the cache as it is -/

section Untouched

variable {env : Surroundings} {e : Engine} {d : Disk} {c : ModelCache}

/-- **Only a load that trains writes to the cache.** -/
lemma disk_of_load (env : Surroundings) (force : Bool) (e : Engine) (d : Disk) {o : Outcome}
    (ho : (load env force (Session.start e d)).1 = .ok o) (hne : o ≠ .trained) :
    (load env force (Session.start e d)).2.disk = clearedDisk env (.load force) d := by
  have hend := run_end env (.load force) e d
  change CallEnd env _ e _ _ (load env force (Session.start e d)) at hend
  generalize load env force (Session.start e d) = ended at hend ho ⊢
  cases hend with
  | kept r t listed hr hu => exact hu.disk
  | adopted m t hm hrel => exact hrel.disk
  | trained m d' t => exact absurd (Except.ok.inj ho).symm hne
  | late m d' r t hm hr =>
    obtain rfl : r = .ok o := ho
    cases hr

lemma invalidate_of_load (hc : env.cache = some c) {o : Outcome}
    (ho : (load env true (Session.start e d)).1 = .ok o) : (c.invalidate d).1 = .ok () := by
  have hdisk : (Session.start e d).disk = d := rfl
  unfold load at ho
  rw [hc] at ho
  dsimp only at ho
  rw [hdisk] at ho
  split at ho
  · cases ho
  · assumption

/-- **Training as asked for does not touch the cache**, and neither does a given model. -/
lemma disk_loadFromTraining (env : Surroundings) (e : Engine) (d : Disk) (ts : TrainSettings) :
    (loadFromTraining env ts (Session.start e d)).2.disk = d := by
  have hspec := train_spec (underway_start env e d) ts
  unfold loadFromTraining
  generalize train env ts (Session.start e d) = ended at hspec
  cases hspec with
  | failed f listed t hu => exact hu.disk
  | calledOff t hu => exact hu.disk
  | noData t hu => exact hu.disk
  | released m t hrel => exact hrel.disk
  | unlogged m t hrel => exact hrel.disk

end Untouched

/-! ### Engines and their cache -/

/-- What holds of a cache and of all engines on it once a load has ended at `t` with
`p` published. -/
structure Coherent (env : Surroundings) (c : ModelCache) (t : Session) (p : Published) : Prop where
  published : t.engine.published = some p
  complete : p.Complete env.catalog
  /-- The model is in the cache, bit by bit. -/
  cached : c.read t.disk = (.ok (some p.model.restored), [])
  /-- Every other engine comes to a twin of it, without a look at any feature. -/
  others : ∀ (env' : Surroundings) (e' : Engine), env'.cache = some c → env'.catalog = env.catalog →
    e'.settings = t.engine.settings → Calm env' e' →
    ∃ t', load env' false (Session.start e' t.disk) = (.ok .loadedFromCache, t') ∧
      t'.fetched = [] ∧ t'.disk = t.disk ∧ Mirrors p t.engine t'.engine
  /-- All that have a twin give the same answers. -/
  answers : ∀ x, Mirrors p t.engine x → AnswersAs t.engine x
  /-- Indices and searches come out alike in whatever order they are made. -/
  orderless : ∀ p', p.Twin p' → p'.Orderless env.catalog
  /-- More loads change nothing of this, be they by the engine itself or by others. -/
  reloads : ∀ x, x = t.engine ∨ Mirrors p t.engine x → ∀ envs : List Surroundings,
    (∀ env' ∈ envs, env'.cache = some c ∧ env'.catalog = env.catalog) →
    (reloadAll x t.disk envs).2 = t.disk ∧ Mirrors p t.engine (reloadAll x t.disk envs).1

lemma Cached.coherent {env : Surroundings} {e : Engine} {c : ModelCache} {d : Disk} {t : Session}
    {p : Published} (ha : Cache.Lossless c.machine) (h : Cached env e c d t p)
    (hu : c.Usable d env.names) : Coherent env c t p := by
  obtain ⟨hw, hserves⟩ := ModelCache.serves_of_write hu h.written
  have hread := hserves.read ha hu.suits h.onGrid hw
  have hfound : (c.read t.disk).1 = .ok (some p.model.restored) := congrArg Prod.fst hread
  refine ⟨h.published, h.complete, hread, fun env' e' hc hcatalog hsettings hcalm => ?_,
    fun x hx => hx.answersAs h.published,
    fun p' htwin => (htwin.complete h.complete).orderless (htwin.onGrid h.onGrid),
    fun x hx envs henvs => ?_⟩
  · obtain ⟨t', hload, hfetched, hdisk, hkept, p', hp', htwin⟩ :=
      load_calm hc hfound (hcatalog ▸ h.complete) hcalm
    exact ⟨t', hload, hfetched, hdisk, hkept.trans hsettings, p', hp', htwin⟩
  · have hmirrors : Mirrors p t.engine x := by
      rcases hx with rfl | hx
      · exact ⟨rfl, p, h.published, .refl p⟩
      · exact hx
    exact hmirrors.reloadAll hfound h.complete henvs

/-- **Engines and their cache stay coherent.** After a load that has trained and has not warned that
its model could not be written, the cache holds the model that the engine has published, bit by bit.
Every other engine with the settings, the catalog and the cache comes to it in one load without a
look at any feature, if nobody cancels that: to the same network, positions, indices and median, and
so to the same answers, as long as no artists have to be dropped. However often it is loaded again,
this stays so. A load that ends otherwise leaves the cache as it was, or nothing if it was to be
removed first; and nothing but such a load changes it at all. -/
theorem loads_stay_coherent {env : Surroundings} {c : ModelCache} (ha : Cache.Lossless c.machine)
    (hc : env.cache = some c) (force : Bool) (e : Engine) (d : Disk)
    (hu : c.Usable (clearedDisk env (.load force) d) env.names) :
    let r := (load env force (Session.start e d)).1
    let t := (load env force (Session.start e d)).2
    (r = .ok .trained → .notCached ∉ t.warnings →
      t.engine.settings = e.settings ∧ ∃ p, Coherent env c t p) ∧
      (∀ o, r = .ok o → o ≠ .trained →
        (force = false → t.disk = d) ∧
        (force = true → c.read t.disk = (.ok none, []) ∧ ∀ n, t.disk.node c.folder ≠ .ok n)) ∧
      (∀ ts, (loadFromTraining env ts (Session.start e d)).2.disk = d) ∧
      ∀ m, (loadFromCache env m (Session.start e d)).2.disk = d := by
  intro r t
  refine ⟨fun hr hw => ?_, fun o ho hne => ⟨?_, ?_⟩, disk_loadFromTraining env e d,
    fun m => (adopt_kept env m _).disk⟩
  · obtain ⟨p, hp⟩ := cached_of_load hc (Prod.ext hr rfl) hw
    exact ⟨hp.settings, p, hp.coherent ha hu⟩
  · rintro rfl
    have hdisk := disk_of_load env false e d ho hne
    unfold clearedDisk at hdisk
    exact hdisk
  · rintro rfl
    obtain ⟨hgone, hnone⟩ := ModelCache.read_invalidate hu.suits (invalidate_of_load hc ho)
    have hdisk : t.disk = (c.invalidate d).2 := by
      have hcleared := disk_of_load env true e d ho hne
      unfold clearedDisk at hcleared
      rw [hc] at hcleared
      exact hcleared
    rw [hdisk]
    exact ⟨hnone, hgone⟩

/-! ### A load that trains -/

def soloEngine : Engine :=
  { bareEngine with
    settings := { bareEngine.settings with iterations := 1 }
    registry := [(.chars "loudness", 1)]
    defaults := [(.chars "loudness", 1.0)] }

def soloSurroundings : Surroundings :=
  { bareSurroundings with
    listed := { bareSurroundings.listed with trackIds := .ok [7] }
    catalog := { bareSurroundings.catalog with trackIds := .ok [7] }
    source := .ofTable [(7, [(.chars "loudness", [1.0])])]
    cache := some ModelCache.soleCache
    names := ModelCache.firstNames }

def soloTraining : TrainSettings :=
  ⟨[(.chars "loudness", 1.0)], 1, 4.0⟩

def soloVectors : List (List Float) :=
  (scaleVectors 1 [[1.0]]).toOption.getD []

def soloFetched : Session :=
  { Session.start soloEngine Disk.empty with fetched := [7] }

def soloMade : Except Fault Network × Session :=
  makeNetwork soloSurroundings.room soloTraining 2 1 (soloFetched.warn [.fewTracks 1])

def soloDraft : Network :=
  soloMade.1.toOption.getD Search.square

def soloCourse : Except Fault Network × Session :=
  trainNetwork soloSurroundings soloDraft soloVectors soloTraining.iterations soloMade.2

def soloNetwork : Network :=
  soloCourse.1.toOption.getD Search.square

def soloModel (p : Position) : Model :=
  ⟨soloNetwork, addPosition ∅ 7 p, rfl⟩

lemma trainOn_solo : ∃ p, (soloModel p).OnGrid ∧
    trainOn soloSurroundings soloTraining 1 [(7, [1.0])] soloFetched =
      publishTrained soloSurroundings soloNetwork (soloModel p).positions 1 soloCourse.2 := by
  obtain ⟨p, hp⟩ : ∃ p : Position, classify soloNetwork [(7, soloVectors.headD [])] ∅ soloCourse.2 =
      (.ok (some (addPosition ∅ 7 p)), soloCourse.2) := ⟨_, rfl⟩
  have hscale : scaleVectors 1 ([((7 : Int), [(1.0 : Float)])].map (·.2)) = .ok soloVectors := rfl
  have hside : Grid.sideFor [((7 : Int), [(1.0 : Float)])].length soloTraining.perNeuron =
      .ok 2 := by
    decide +kernel
  have hfew : isFew [((7 : Int), [(1.0 : Float)])].length soloTraining.perNeuron = true := by
    decide +kernel
  have hmade : makeNetwork soloSurroundings.room soloTraining 2 1
      (soloFetched.warn [.fewTracks 1]) =
      (.ok soloDraft, soloMade.2) := rfl
  have hcourse : trainNetwork soloSurroundings soloDraft soloVectors soloTraining.iterations
      soloMade.2 = (.ok soloNetwork, soloCourse.2) := rfl
  have hzip : ([((7 : Int), [(1.0 : Float)])].map (·.1)).zip soloVectors =
      [(7, soloVectors.headD [])] := rfl
  have htrained : soloNetwork.state ≠ .aborted := by
    have hstate : soloNetwork.state = .trained := rfl
    rw [hstate]
    decide
  refine ⟨p, holds_of_classify (congrArg Prod.fst hp), ?_⟩
  have hreport (params : Params) :
      reportParams soloSurroundings params soloMade.2 = (.ok (), soloMade.2) := rfl
  unfold trainOn
  rw [hscale, hside]
  dsimp only
  rw [if_pos hfew, List.length_singleton, hmade]
  dsimp only
  rw [hreport]
  dsimp only
  rw [hcourse]
  dsimp only
  rw [if_neg htrained, hzip, hp]
  rfl

/-- Wherever the track lies, its number and the sizes of the files are not too long. -/
lemma isWritable_solo {p : Position} (hp : (soloModel p).OnGrid) :
    Cache.isWritable .standard (soloModel p) soloSurroundings.names.time = true := by
  have hcases : ∀ x ∈ [(0 : Int), 1], ∀ y ∈ [(0 : Int), 1],
      Cache.isWritable .standard (soloModel ⟨x, y⟩) soloSurroundings.names.time = true := by
    decide +kernel
  have hgrid : soloNetwork.grid.Contains p := by
    refine hp 7 p ?_
    rw [soloModel, addPosition, Std.ExtTreeMap.getD_insert_self]
    exact Std.ExtTreeSet.mem_insert_self
  have hsize : soloNetwork.grid = ⟨2, 2⟩ := rfl
  rw [hsize] at hgrid
  obtain ⟨⟨hx, hx'⟩, hy, hy'⟩ := hgrid
  obtain ⟨x, y⟩ := p
  dsimp only at hx hx' hy hy'
  refine hcases x ?_ y ?_ <;> simp only [List.mem_cons, List.not_mem_nil, or_false] <;> omega

lemma publishTrained_solo {p : Position} (hp : (soloModel p).OnGrid) :
    ∃ t, publishTrained soloSurroundings soloNetwork (soloModel p).positions 1 soloCourse.2 =
        (.ok (some (soloModel p)), t) ∧ t.disk = Disk.empty ∧ t.warnings = [.fewTracks 1] := by
  have hcatalog : ∀ row ∈ (soloModel p).positions.toList,
      ∃ t, soloSurroundings.catalog.track row.1 = .ok t := fun row _ => ⟨⟨none, []⟩, rfl⟩
  obtain ⟨index, hindex⟩ := ModelIndex.exists_build (ModelIndex.contains_of_holds hp) hcatalog
  have hpublish := publish_calm (s := soloCourse.2) (m := soloModel p) rfl (fun _ => rfl) hindex
  have hkept := publish_kept soloSurroundings (soloModel p) soloCourse.2
  have hmake : Model.make soloNetwork (soloModel p).positions = .ok (soloModel p) := rfl
  unfold publishTrained
  rw [hmake]
  dsimp only
  generalize publish soloSurroundings (soloModel p) soloCourse.2 = published at hpublish hkept
  obtain ⟨r, t⟩ := published
  obtain rfl : r = .ok true := hpublish
  exact ⟨_, rfl, hkept.disk, hkept.warnings⟩

lemma store_solo {p : Position} (hp : (soloModel p).OnGrid) {s : Session}
    (hs : s.disk = Disk.empty) (hw : s.warnings = [.fewTracks 1]) :
    ∃ t, store soloSurroundings ModelCache.soleCache (soloModel p) s = (.ok (), t) ∧
      .notCached ∉ t.warnings := by
  obtain ⟨d, ws, hwrite, -⟩ := ModelCache.exists_write ModelCache.usable_soleCache
    (isWritable_solo hp) ModelCache.clear_soleCache
  unfold store
  rw [hs]
  change ModelCache.soleCache.write Disk.empty (soloModel p) soloSurroundings.names = _ at hwrite
  rw [hwrite]
  refine ⟨_, rfl, ?_⟩
  simp [Session.warn, hw]

/-- **There are loads that train** and write their model. -/
lemma load_solo : ∃ t, load soloSurroundings false (Session.start soloEngine Disk.empty) =
    (.ok .trained, t) ∧ .notCached ∉ t.warnings := by
  obtain ⟨p, hp, htrain⟩ := trainOn_solo
  obtain ⟨s, hpublish, hdisk, hwarnings⟩ := publishTrained_solo hp
  obtain ⟨t, hstore, hnot⟩ := store_solo hp hdisk hwarnings
  have hcache : soloSurroundings.cache = some ModelCache.soleCache := rfl
  have hsettings : TrainSettings.ofSettings (Session.start soloEngine Disk.empty).engine.settings
      (Session.start soloEngine Disk.empty).engine.defaults = .ok soloTraining := rfl
  have hdimensions : Feature.totalDimensions (Session.start soloEngine Disk.empty).engine.registry
      (Feature.orderedNames soloTraining.features.names) = .ok 1 := rfl
  have hcollect : collectSamples soloSurroundings (Feature.orderedNames soloTraining.features.names)
      (Session.start soloEngine Disk.empty) = (.ok (some [(7, [1.0])]), soloFetched) := rfl
  have htrained : train soloSurroundings soloTraining (Session.start soloEngine Disk.empty) =
      (.ok (.trained, some (soloModel p)), s) := by
    unfold train
    dsimp only
    rw [hdimensions, hcollect]
    dsimp only
    rw [htrain, hpublish]
  have hloaded : loadByTraining soloSurroundings (Session.start soloEngine Disk.empty) =
      (.ok .trained, t) := by
    unfold loadByTraining
    rw [hsettings]
    dsimp only
    rw [htrained, hcache]
    dsimp only
    rw [hstore]
  -- nothing is cached yet
  have hread : ModelCache.soleCache.read Disk.empty = (.ok none, []) := rfl
  have hdisk : (Session.start soloEngine Disk.empty).disk = Disk.empty := rfl
  refine ⟨t, ?_, hnot⟩
  unfold load
  rw [hcache]
  dsimp only
  rw [hdisk, hread]
  exact hloaded

theorem loads_stay_coherent_solo :
    (Cache.Lossless ModelCache.soleCache.machine ∧
        soloSurroundings.cache = some ModelCache.soleCache) ∧
      ModelCache.soleCache.Usable (clearedDisk soloSurroundings (.load false) Disk.empty)
        soloSurroundings.names ∧
      ∃ t p, load soloSurroundings false (Session.start soloEngine Disk.empty) = (.ok .trained, t) ∧
        Coherent soloSurroundings ModelCache.soleCache t p := by
  have husable : ModelCache.soleCache.Usable (clearedDisk soloSurroundings (.load false) Disk.empty)
      soloSurroundings.names := ModelCache.usable_soleCache
  obtain ⟨t, hload, hnot⟩ := load_solo
  obtain ⟨hcoherent, -⟩ := loads_stay_coherent
    ModelCache.lossless_soleCache rfl false soloEngine Disk.empty husable
  rw [hload] at hcoherent
  obtain ⟨-, p, hp⟩ := hcoherent rfl hnot
  exact ⟨⟨ModelCache.lossless_soleCache, rfl⟩, husable, t, p, hload, hp⟩

end SoundAtlas.Engine
