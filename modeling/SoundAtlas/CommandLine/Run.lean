import SoundAtlas.CommandLine.Request
import SoundAtlas.Engine.Loading
import SoundAtlas.Json.Layout

/-!
Doing what a command line asks for. A run prints a text and ends with an exit status or a fault, and
leaves a disk behind.
-/

namespace SoundAtlas.CommandLine

inductive Fault where
  | settings (e : Settings.Error)
  /-- The catalog cannot be looked for or read. -/
  | disk (e : Disk.Error)
  /-- The catalog is no text. -/
  | encoding
  | records (e : Records.Error)
  | network (e : Network.Error)
  | load (e : Engine.Fault)
  | query (e : Engine.QueryError)
  | cache (e : ModelCache.Error)
  /-- What is to be told is nested too deeply. -/
  | tooDeep
deriving DecidableEq, Repr

def Fault.message? : Fault → Option Json.Text
  | .settings e => some (.chars e.message)
  | .records e => e.message?.map .chars
  | .network e => e.message?.map .chars
  | .load e => e.message?
  | .query e => e.message?.map .chars
  | .cache e => e.message?
  | .disk _ | .encoding | .tooDeep => none

inductive End where
  | exit (status : Nat)
  | fault (f : Fault)
deriving DecidableEq, Repr

structure Run where
  output : String
  ending : End
  disk : Disk

structure Start where
  machine : Machine
  settings : Settings
  disk : Disk
  /-- The names of a version that may be written. -/
  names : ModelCache.FreshNames
  /-- The seed if none is set. -/
  freshSeed : Nat

inductive Refusal where
  /-- The user is told. -/
  | told (message : String)
  | fault (f : Fault)
deriving DecidableEq, Repr

def conclude (answer : Except Refusal String) (d : Disk) : Run :=
  match answer with
  | .ok text => { output := text, ending := .exit 0, disk := d }
  | .error (.told message) => { output := message ++ "\n", ending := .exit 1, disk := d }
  | .error (.fault f) => { output := "", ending := .fault f, disk := d }

/-! ### Loading a model -/

def need (d : Disk) (what : String) (p : Path) : Except Refusal Unit :=
  match d.hasNode p with
  | .error e => .error (.fault (.disk e))
  | .ok false => .error (.told s!"Error: {what} not found: {p.text}")
  | .ok true => .ok ()

def readCatalog (s : Start) (p : Path) : Except Refusal Catalog :=
  match s.disk.read p with
  | .error e => .error (.fault (.disk e))
  | .ok bytes =>
    match String.fromUTF8? bytes with
    | none => .error (.fault .encoding)
    | some text =>
      match Records.ofText s.machine.readDepth text with
      | .error e => .error (.fault (.records e))
      | .ok r => .ok r.catalog

def cacheOf (s : Start) (settings : Settings) : ModelCache :=
  { folder := settings.cacheFolder, machine := s.machine }

def surroundings (s : Start) (settings : Settings) (catalog : Catalog) (features : Path) :
    Engine.Surroundings :=
  .quiet s.machine catalog (.ofFolder s.machine.readDepth features)
    (some (cacheOf s settings)) s.names

def prepare (s : Start) (settings : Settings) (m : ModelSource) :
    Except Refusal (Engine × Engine.Surroundings) := do
  let catalogFile := Path.ofString m.catalog
  let features := Path.ofString m.features
  need s.disk "Catalog file" catalogFile
  need s.disk "Features directory" features
  let catalog ← readCatalog s catalogFile
  match Engine.make settings .standard .standard s.freshSeed with
  | .error e => throw (.fault (.network e))
  | .ok engine => return (engine, surroundings s settings catalog features)

structure Loaded where
  outcome : Engine.Outcome
  engine : Engine
  catalog : Catalog

/-- Loads a model, unless there is nothing to train on. -/
def loadModel (s : Start) (settings : Settings) (m : ModelSource) (force : Bool) :
    Except Refusal Loaded × Disk :=
  match prepare s settings m with
  | .error e => (.error e, s.disk)
  | .ok (engine, env) =>
    let done := Engine.load env force (.start engine s.disk)
    let answer := match done.1 with
      | .error e => .error (.fault (.load e))
      | .ok .noTrainableData => .error (.told "No track has usable features, nothing to train")
      | .ok outcome => .ok ⟨outcome, done.2.engine, env.catalog⟩
    (answer, done.2.disk)

/-! ### Answers -/

def linesText (lines : List String) : String :=
  String.join (lines.map (· ++ "\n"))

def Loaded.report (l : Loaded) : String :=
  linesText (("Outcome: " ++ l.outcome.name) :: match l.engine.published with
    | none => []
    | some p =>
      [s!"Grid: {p.model.network.grid.width}x{p.model.network.grid.height}, " ++
         s!"dimensions: {p.model.network.dimensions}",
       s!"Tracks classified: {p.model.positions.toList.length}",
       "Median neighbor distance: " ++ Number.fixed 4 p.median])

def Loaded.answer (l : Loaded) (what : String) (q : Engine.SimilarQuery) :
    Except Refusal String :=
  match (l.engine.answer l.catalog q).1 with
  | .error e => .error (.fault (.query e))
  | .ok ids =>
    .ok (linesText (s!"Similar {what} ({ids.length}):" :: ids.map fun id => s!"  {id}"))

/-- The query for tracks: a track list goes before tracks. -/
def tracksQuery (tracks : List Int) (list : Option Int) (maxCount : Int) :
    Except Refusal Engine.SimilarQuery :=
  match list, tracks with
  | some id, _ => .ok (.trackList id maxCount)
  | none, [] => .error (.told "Error: pass --track or --track-list")
  | none, ids => .ok (.tracks ids maxCount)

/-- Roles by their names; all if none is named. -/
def readRoles (names : List String) : Except Refusal (List LinkType) :=
  match names.mapM LinkType.ofString with
  | .error e => .error (.told ("Error: " ++ e.message?.getD ""))
  | .ok [] => .ok LinkType.all
  | .ok roles => .ok roles

/-! ### Requests -/

def train (s : Start) (settings : Settings) (m : ModelSource) (force : Bool) : Run :=
  match settings.validate with
  | .error e => conclude (.error (.fault (.settings e))) s.disk
  | .ok () =>
    let r := loadModel s settings m force
    conclude (r.1.map Loaded.report) r.2

def query (s : Start) (settings : Settings) (m : ModelSource) (what : String)
    (q : Except Refusal Engine.SimilarQuery) : Run :=
  let r := loadModel s settings m false
  conclude (r.1.bind fun l => q.bind (l.answer what)) r.2

def cacheInfo (s : Start) (settings : Settings) : Run :=
  match ((cacheOf s settings).info s.disk).1 with
  | .error e => conclude (.error (.fault (.cache e))) s.disk
  | .ok i =>
    match i.document.layout? s.machine.layoutDepth with
    | none => conclude (.error (.fault .tooDeep)) s.disk
    | some text => conclude (.ok (text ++ "\n")) s.disk

def clearCache (s : Start) (settings : Settings) : Run :=
  let cleared := (cacheOf s settings).invalidate s.disk
  match cleared.1 with
  | .error e => conclude (.error (.fault (.cache e))) cleared.2
  | .ok () => conclude (.ok s!"Cleared {settings.cacheFolder.text}\n") cleared.2

/-- Tells what the settings are, if they are valid. -/
def showConfig (s : Start) (settings : Settings) : Run :=
  match settings.validate with
  | .error e => conclude (.error (.told ("❌ Configuration error: " ++ e.message))) s.disk
  | .ok () => conclude (.ok ("✅ Configuration is valid\n" ++ settings.report)) s.disk

def perform (s : Start) (settings : Settings) : Request → Run
  | .train m force => train s (m.override settings) m force
  | .similarTracks m tracks list maxCount =>
    query s (m.override settings) m "tracks" (tracksQuery tracks list maxCount)
  | .similarReleases m release maxCount =>
    query s (m.override settings) m "releases" (.ok (.releases release maxCount))
  | .similarArtists m artist roles maxCount =>
    query s (m.override settings) m "artists"
      ((readRoles roles).map fun ts => .artists artist ts maxCount)
  | .cacheInfo => cacheInfo s settings
  | .clearCache => clearCache s settings
  | .showConfig => showConfig s settings

/-- The settings with the folder of the cache that was named; an empty name counts as none. -/
def withCache (cache : Option String) (s : Settings) : Settings :=
  match cache with
  | some folder => if folder.isEmpty then s else { s with cache := some folder }
  | none => s

def pathsOf (settings : Settings) (words : List String) : List Path :=
  match Asked.ofWords words with
  | .help _ | .misuse => []
  | .request cache r =>
    (withCache cache settings).cacheFolder ::
      (r.source?.map fun m => [Path.ofString m.catalog, Path.ofString m.features]).getD []

def run (s : Start) (words : List String) : Run :=
  match Asked.ofWords words with
  | .help text => { output := text, ending := .exit 0, disk := s.disk }
  | .misuse => { output := "", ending := .exit 2, disk := s.disk }
  | .request cache r => perform s (withCache cache s.settings) r

end SoundAtlas.CommandLine
