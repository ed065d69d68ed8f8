import SoundAtlas.Cache.Store
import SoundAtlas.Engine.Query
import SoundAtlas.Feature.Scaling
import SoundAtlas.Feature.Source
import SoundAtlas.Network.Training
import SoundAtlas.Settings.Training

/-!
Loading: a model comes from the cache, or is trained on the features of the tracks of the catalog,
or is given. Whatever happens on the way, the new model and all that follows from it are published
in one step at the end, or the old one stays.
-/

namespace SoundAtlas.Engine

/-! ### What surrounds a load -/

inductive Event where
  /-- The catalog lists its tracks. -/
  | listing
  /-- The features of a track are fetched; the fetches of a load are counted from zero. -/
  | fetch (n : Nat)
  /-- The listener hears of an iteration. -/
  | progress (iteration : Nat)
  /-- The release of a track is looked up; the look-ups of a load are counted from zero. -/
  | lookUp (n : Nat)
deriving DecidableEq, Repr

structure Params where
  side : Nat
  dimensions : Nat
  iterations : Int
  perNeuron : Float
  features : List FeatureName

/-- What is told about a training when its model has been published. -/
structure Metrics where
  samples : Nat
  median : Float

inductive Logged where
  /-- Nobody keeps track, so there is no report. -/
  | idle
  | done
  | failed
deriving DecidableEq, Repr

/-- Who keeps track of trainings, and what becomes of the reports. -/
structure Tracker where
  params : Params → Logged
  metrics : Metrics → Logged

def Tracker.absent : Tracker where
  params _ := .idle
  metrics _ := .idle

/-- Who takes part in a load, and what they do meanwhile. The catalog may change at any moment: it
is given as it is when the tracks are listed, as it answers when the indices are built, and as it is
at each query of the listener. -/
structure Surroundings where
  listed : Catalog
  catalog : Catalog
  source : Feature.Source
  cache : Option ModelCache
  tracker : Tracker
  /-- There is room for fewer entries than this in a list. -/
  room : Nat
  /-- The names of a version that may be written. -/
  names : ModelCache.FreshNames
  /-- The moments at which loading is cancelled. -/
  cancels : Event → Bool
  /-- The queries that the listener makes when it hears of an iteration. -/
  queries : Nat → List (Catalog × SimilarQuery)
  /-- The iterations at which the listener fails. -/
  fails : Nat → Bool

/-- What surrounds a load in which nobody interferes and nobody keeps track of trainings. -/
def Surroundings.quiet (machine : Machine) (catalog : Catalog) (source : Feature.Source)
    (cache : Option ModelCache) (names : ModelCache.FreshNames) : Surroundings where
  listed := catalog
  catalog := catalog
  source := source
  cache := cache
  tracker := .absent
  room := machine.room
  names := names
  cancels _ := false
  queries _ := []
  fails _ := false

inductive Fault where
  | cache (e : ModelCache.Error)
  | settings (e : Settings.Error)
  | features (e : Feature.Error)
  | catalog (e : Catalog.Fault)
  | source (e : Feature.Fault)
  | scaling (e : Feature.Scaling.Error)
  | size (e : Grid.SizeError)
  | network (e : Network.Error)
  | listener
  /-- A report on the training cannot be made. -/
  | tracker
  | build (e : ModelIndex.BuildError)
  | model (e : Model.Error)
deriving DecidableEq, Repr

def Fault.message? : Fault → Option Json.Text
  | .cache e => e.message?
  | .settings e => some (.chars e.message)
  | .features e => e.message?.map .chars
  | .catalog e => some (.chars e.reason)
  | .scaling e => e.message?.map .chars
  | .network e => e.message?.map .chars
  | .build (.catalog e) => some (.chars e.reason)
  | .model e => e.message?.map .chars
  | .source _ | .size _ | .listener | .tracker | .build .noCell => none

inductive Outcome where
  | loadedFromCache
  | trained
  | cancelled
  | noTrainableData
deriving DecidableEq, Repr

def Outcome.name : Outcome → String
  | .loadedFromCache => "loaded_from_cache"
  | .trained => "trained"
  | .cancelled => "cancelled"
  | .noTrainableData => "no_trainable_data"

inductive Warning where
  | source (w : Feature.Warning)
  | mismatch (m : Feature.Mismatch)
  | cache (w : ModelCache.Warning)
  | fewTracks (n : Nat)
  | notCached
deriving DecidableEq, Repr

def Warning.text : Warning → Json.Text
  | .source w => w.text
  | .mismatch m => m.report
  | .cache w => .chars w.text
  | .fewTracks n => .chars
    s!"Very few tracks ({n}) are being used by the features engine, expect bad behaviors"
  | .notCached => .chars "Failed to cache trained model"

/-- A load on its way: the engine and the disk as they are now, and what has happened so far. -/
structure Session where
  engine : Engine
  disk : Disk
  fetched : List Int
  lookUps : Nat
  progress : List (Nat × Nat)
  seen : List (Except QueryError (List Int))
  warnings : List Warning
  params : Option Params
  metrics : Option Metrics

namespace Session

def start (e : Engine) (d : Disk) : Session where
  engine := e
  disk := d
  fetched := []
  lookUps := 0
  progress := []
  seen := []
  warnings := []
  params := none
  metrics := none

def isCancelled (s : Session) : Bool :=
  s.engine.cancelRequested

/-- What others do at an event: they may cancel. -/
def meet (env : Surroundings) (ev : Event) (s : Session) : Session :=
  if env.cancels ev then { s with engine := s.engine.cancel } else s

def warn (ws : List Warning) (s : Session) : Session :=
  { s with warnings := s.warnings ++ ws }

/-- The listener makes a query, of the catalog as it is then. -/
def ask (s : Session) (q : Catalog × SimilarQuery) : Session :=
  let answered := s.engine.answer q.1 q.2
  { s with engine := answered.2, seen := s.seen ++ [answered.1] }

end Session

/-! ### Publishing -/

/-- Who watches the building of indices: a load that can be cancelled, and counts look-ups. -/
def buildWatch (env : Surroundings) : ModelIndex.BuildWatch Session where
  poll s := (s.isCancelled, s)
  lookUp s := { s.meet env (.lookUp s.lookUps) with lookUps := s.lookUps + 1 }

/-- Builds the indices of a model, and then publishes it with them. Answers whether it has been
published. -/
def publish (env : Surroundings) (m : Model) (s : Session) : Except Fault Bool × Session :=
  match ModelIndex.build m.network.grid.width m.network.grid.height m.positions env.catalog
      (buildWatch env) s with
  | (.error e, s) => (.error (.build e), s)
  | (.ok none, s) => (.ok false, s)
  | (.ok (some index), s) =>
    let p : Published := { model := m, index, median := m.network.medianNeighborDistance }
    (.ok true, { s with engine := { s.engine with published := some p } })

def adopt (env : Surroundings) (m : Model) (s : Session) : Except Fault Outcome × Session :=
  match publish env m s with
  | (.error e, s) => (.error e, s)
  | (.ok true, s) => (.ok .loadedFromCache, s)
  | (.ok false, s) => (.ok .cancelled, s)

/-! ### Samples -/

abbrev Sample := Int × List Float

def fetch (env : Surroundings) (names : List FeatureName) (track : Int) (s : Session) :
    Except Fault (Option Feature.Values) × Session :=
  let got := env.source.fetch s.disk track names
  let s := s.meet env (.fetch s.fetched.length)
  (got.result.mapError .source,
   { s with fetched := s.fetched ++ [track] }.warn (got.warnings.map .source))

/-- The input vectors of those tracks that have one, in order; nothing if loading is cancelled
before the last track. -/
def collect (env : Surroundings) (names : List FeatureName) : List Int → List Sample → Session →
    Except Fault (Option (List Sample)) × Session
  | [], samples, s => (.ok (some samples), s)
  | track :: tracks, samples, s =>
    if s.isCancelled then (.ok none, s)
    else
      match fetch env names track s with
      | (.error e, s) => (.error e, s)
      | (.ok none, s) => collect env names tracks samples s
      | (.ok (some []), s) => collect env names tracks samples s
      | (.ok (some values), s) =>
        match Feature.inputVector s.engine.registry values names with
        | .error e => (.error (.features e), s)
        | .ok (.error m) => collect env names tracks samples (s.warn [.mismatch m])
        | .ok (.ok v) => collect env names tracks (samples ++ [(track, v)]) s

def collectSamples (env : Surroundings) (names : List FeatureName) (s : Session) :
    Except Fault (Option (List Sample)) × Session :=
  let s := s.meet env .listing
  match env.listed.trackIds with
  | .error e => (.error (.catalog e), s)
  | .ok tracks => collect env names tracks [] s

/-- Vectors scaled by the least and greatest values among them. -/
def scaleVectors (dimensions : Int) (vectors : List (List Float)) :
    Except Fault (List (List Float)) :=
  let matrix := Tensor.ofRows vectors
  match (Feature.Scaling.ofDimensions dimensions).fitTo matrix with
  | (.error e, _) => .error (.scaling e)
  | (.ok (), scaling) => (scaling.scaleAll matrix).mapError .scaling

/-! ### Training -/

def trainingWatch (env : Surroundings) : Network.Watch Session Unit where
  poll s := (s.isCancelled, s)
  announce k n s :=
    let s := { s with progress := s.progress ++ [(k, n)] }
    let s := ((env.queries k).foldl Session.ask s).meet env (.progress k)
    (if env.fails k then .error () else .ok (), s)

/-- Whether there are so few samples that a model will be bad. -/
def isFew (samples : Nat) (perNeuron : Float) : Bool :=
  Float.ofNat samples < 4.0 * perNeuron

/-- An untrained network for so many samples, with the weights of the features; the generator has
been used even if it fails. -/
def makeNetwork (room : Nat) (t : TrainSettings) (side : Nat) (dimensions : Int) (s : Session) :
    Except Fault Network × Session :=
  match Network.Shape.check side side dimensions with
  | .error e => (.error (.network e), s)
  | .ok shape =>
    let drawn := Network.random shape s.engine.settings.rate s.engine.settings.radius
      s.engine.generator
    let s := { s with engine := { s.engine with generator := drawn.2 } }
    match Feature.inputWeights room s.engine.registry t.features with
    | .error e => (.error (.features e), s)
    | .ok weights => ((drawn.1.setWeights (.ok (Tensor.ofList weights).words)).mapError .network, s)

def reportParams (env : Surroundings) (p : Params) (s : Session) : Except Fault Unit × Session :=
  match env.tracker.params p with
  | .idle => (.ok (), s)
  | .done => (.ok (), { s with params := some p })
  | .failed => (.error .tracker, s)

/-- Reports on a training whose model has been published. -/
def reportMetrics (env : Surroundings) (m : Metrics) (s : Session) : Except Fault Unit × Session :=
  match env.tracker.metrics m with
  | .idle => (.ok (), s)
  | .done => (.ok (), { s with metrics := some m })
  | .failed => (.error .tracker, s)

def trainNetwork (env : Surroundings) (n : Network) (vectors : List (List Float))
    (iterations : Int) (s : Session) : Except Fault Network × Session :=
  let training := n.train (Tensor.ofRows vectors) iterations (trainingWatch env)
    s.engine.generator s
  let w := training.watcher
  let s := { w with engine := { w.engine with generator := training.generator } }
  match training.result with
  | .error (.network e) => (.error (.network e), s)
  | .error (.watcher ()) => (.error .listener, s)
  | .ok _ => (.ok training.network, s)

def addPosition (ps : TrackPositions) (track : Int) (p : Position) : TrackPositions :=
  ps.insert track ((ps.getD track ∅).insert p)

/-- The positions of the tracks on a trained network; nothing if loading has been cancelled. -/
def classify (n : Network) : List Sample → TrackPositions → Session →
    Except Fault (Option TrackPositions) × Session
  | [], ps, s => (.ok (some ps), s)
  | (track, v) :: rest, ps, s =>
    if s.isCancelled then (.ok none, s)
    else
      match n.closestPosition (.ok (.ofList v)) with
      | .error e => (.error (.network e), s)
      | .ok p => classify n rest (addPosition ps track p) s

/-- Publishes the model of a network on which tracks have been classified, and reports on it. The
model stays published if the report cannot be made. -/
def publishTrained (env : Surroundings) (n : Network) (positions : TrackPositions)
    (samples : Nat) (s : Session) : Except Fault (Option Model) × Session :=
  match Model.make n positions with
  | .error e => (.error (.model e), s)
  | .ok m =>
    match publish env m s with
    | (.error e, s) => (.error e, s)
    | (.ok false, s) => (.ok none, s)
    | (.ok true, s) =>
      match reportMetrics env { samples, median := m.network.medianNeighborDistance } s with
      | (.error e, s) => (.error e, s)
      | (.ok (), s) => (.ok (some m), s)

/-- Trains a network on samples, classifies the tracks and publishes the model. -/
def trainOn (env : Surroundings) (t : TrainSettings) (dimensions : Int) (samples : List Sample)
    (s : Session) : Except Fault (Option Model) × Session :=
  match scaleVectors dimensions (samples.map (·.2)), Grid.sideFor samples.length t.perNeuron with
  | .error e, _ => (.error e, s)
  | .ok _, .error e => (.error (.size e), s)
  | .ok vectors, .ok side =>
    let s := if isFew samples.length t.perNeuron then s.warn [.fewTracks samples.length] else s
    match makeNetwork env.room t side dimensions s with
    | (.error e, s) => (.error e, s)
    | (.ok n, s) =>
      let params : Params :=
        { side, dimensions := n.dimensions, iterations := t.iterations,
          perNeuron := t.perNeuron, features := Feature.orderedNames t.features.names }
      match reportParams env params s with
      | (.error e, s) => (.error e, s)
      | (.ok (), s) =>
        match trainNetwork env n vectors t.iterations s with
        | (.error e, s) => (.error e, s)
        | (.ok n, s) =>
          if n.state = .aborted then (.ok none, s)
          else
            match classify n ((samples.map (·.1)).zip vectors) ∅ s with
            | (.error e, s) => (.error e, s)
            | (.ok none, s) => (.ok none, s)
            | (.ok (some positions), s) => publishTrained env n positions samples.length s

/-- Trains a model on the features of the tracks of the catalog and publishes it. -/
def train (env : Surroundings) (t : TrainSettings) (s : Session) :
    Except Fault (Outcome × Option Model) × Session :=
  let names := Feature.orderedNames t.features.names
  match Feature.totalDimensions s.engine.registry names with
  | .error e => (.error (.features e), s)
  | .ok dimensions =>
    match collectSamples env names s with
    | (.error e, s) => (.error e, s)
    | (.ok none, s) => (.ok (.cancelled, none), s)
    | (.ok (some []), s) => (.ok (.noTrainableData, none), s)
    | (.ok (some samples), s) =>
      match trainOn env t dimensions samples s with
      | (.error e, s) => (.error e, s)
      | (.ok none, s) => (.ok (.cancelled, none), s)
      | (.ok (some m), s) => (.ok (.trained, some m), s)

/-! ### Loading -/

/-- Whether a failure to write to the cache is only warned of: the disk has refused. -/
def isWriteWarned : ModelCache.Error → Bool
  | .disk .badName => false
  | .disk _ => true
  | _ => false

def store (env : Surroundings) (c : ModelCache) (m : Model) (s : Session) :
    Except Fault Unit × Session :=
  let written := c.write s.disk m env.names
  let s := { s with disk := written.1.2 }.warn (written.2.map .cache)
  match written.1.1 with
  | .ok () => (.ok (), s)
  | .error e => if isWriteWarned e then (.ok (), s.warn [.notCached]) else (.error (.cache e), s)

/-- Trains with the settings of the engine, and writes the model to the cache. -/
def loadByTraining (env : Surroundings) (s : Session) : Except Fault Outcome × Session :=
  match TrainSettings.ofSettings s.engine.settings s.engine.defaults with
  | .error e => (.error (.settings e), s)
  | .ok t =>
    match train env t s, env.cache with
    | (.error e, s), _ => (.error e, s)
    | (.ok (outcome, some m), s), some c =>
      match store env c m s with
      | (.error e, s) => (.error e, s)
      | (.ok (), s) => (.ok outcome, s)
    | (.ok (outcome, _), s), _ => (.ok outcome, s)

/-- Publishes the cached model, or else trains one. If `force` is given the cache is removed
first. -/
def load (env : Surroundings) (force : Bool) (s : Session) : Except Fault Outcome × Session :=
  match env.cache, force with
  | none, _ => loadByTraining env s
  | some c, true =>
    let cleared := c.invalidate s.disk
    let s := { s with disk := cleared.2 }
    match cleared.1 with
    | .error e => (.error (.cache e), s)
    | .ok () => loadByTraining env s
  | some c, false =>
    let found := c.read s.disk
    let s := s.warn (found.2.map .cache)
    match found.1 with
    | .error e => (.error (.cache e), s)
    | .ok (some m) => adopt env m s
    | .ok none => loadByTraining env s

/-- Trains as asked for. The cache is not touched. -/
def loadFromTraining (env : Surroundings) (t : TrainSettings) (s : Session) :
    Except Fault Outcome × Session :=
  match train env t s with
  | (.error e, s) => (.error e, s)
  | (.ok (outcome, _), s) => (.ok outcome, s)

/-- Publishes a given model. The cache is not touched. -/
def loadFromCache (env : Surroundings) (m : Model) (s : Session) :
    Except Fault Outcome × Session :=
  adopt env m s

end SoundAtlas.Engine
