import SoundAtlas.Network.Basic
import SoundAtlas.Number.Decimal
import SoundAtlas.Number.Reading
import SoundAtlas.Storage.Path

/-!
The settings of training, searching and caching, some of which the environment can override.
-/

namespace SoundAtlas

structure Settings where
  /-- The folder that the default paths are relative to. -/
  root : Path
  iterations : Int
  perNeuron : Float
  rate : Float
  radius : Float
  seed : Option Int
  /-- How far searches go, in median distances between cells side by side; without limit if not
  set. -/
  factor : Option Float
  /-- The folder of the cache, unless it is the default one. -/
  cache : Option String

namespace Settings

/-- The settings that hold unless others are given. -/
def standard (root : Path) : Settings where
  root := root
  iterations := 10
  perNeuron := 4.0
  rate := Network.defaultRate
  radius := Network.defaultRadius
  seed := none
  factor := none
  cache := none

inductive Error where
  | iterations
  | perNeuron
  | rate
  | radius
  | factor
deriving DecidableEq, Repr

def Error.message : Error → String
  | .iterations => "iteration_count must be positive"
  | .perNeuron => "sample_count_per_neuron must be positive"
  | .rate => "initial_learning_rate must be in range (0, 1]"
  | .radius => "final_radius must be positive"
  | .factor => "search_distance_factor must be positive when set"

/-- Checks the settings. What is no number is refused only as a learning rate. -/
def validate (s : Settings) : Except Error Unit := do
  if s.iterations ≤ 0 then throw .iterations
  if s.perNeuron ≤ 0.0 then throw .perNeuron
  if !(0.0 < s.rate && s.rate ≤ 1.0) then throw .rate
  if s.radius ≤ 0.0 then throw .radius
  match s.factor with
  | some x => if x ≤ 0.0 then throw .factor
  | none => return ()

/-! ### The environment -/

abbrev Environment := List (String × String)

/-- The text of a variable; an empty text counts as none. -/
def textOf? (env : Environment) (name : String) : Option String :=
  match env.lookup name with
  | some s => if s.isEmpty then none else some s
  | none => none

/-- A variable that writes a number of some kind overrides a setting; one that does not write it is
named. -/
def override {α : Type} (env : Environment) (name : String) (read? : String → Option α)
    (default : α) : Except String α :=
  match textOf? env name with
  | none => .ok default
  | some s =>
    match read? s with
    | some x => .ok x
    | none => .error name

def variableNames : List String :=
  ["SOMREC_ITERATIONS", "SOMREC_SAMPLES_PER_NEURON", "SOMREC_SEED", "SOMREC_CACHE_DIR",
   "SOMREC_SEARCH_DISTANCE_FACTOR"]

/-- The settings under an environment, or the first variable that writes no number. -/
def ofEnvironment (root : Path) (env : Environment) : Except String Settings := do
  let s := standard root
  let iterations ← override env "SOMREC_ITERATIONS" Number.readWhole? s.iterations
  let perNeuron ← override env "SOMREC_SAMPLES_PER_NEURON" Number.readReal? s.perNeuron
  let seed ← override env "SOMREC_SEED" (fun t => (Number.readWhole? t).map some) s.seed
  let cache := textOf? env "SOMREC_CACHE_DIR"
  let factor ← override env "SOMREC_SEARCH_DISTANCE_FACTOR"
    (fun t => (Number.readReal? t).map some) s.factor
  return { s with iterations, perNeuron, seed, cache, factor }

/-! ### Paths and the report -/

def dataFolder (s : Settings) : Path :=
  s.root.child "data"

def cacheFolder (s : Settings) : Path :=
  match s.cache with
  | some folder => if folder.isEmpty then s.dataFolder.child "cache/som" else Path.ofString folder
  | none => s.dataFolder.child "cache/som"

def floatText (x : Float) : String :=
  Number.DecimalStyle.report.text x

def optionText (t : Option String) : String :=
  t.getD "None"

def rule (c : Char) : String :=
  String.ofList (List.replicate 60 c)

def reportLines (s : Settings) : List String :=
  ["",
   rule '=',
   "                    somrec Configuration                    ",
   rule '=',
   s!"  Iterations:         {s.iterations}",
   s!"  Samples per Neuron: {floatText s.perNeuron}",
   s!"  Learning Rate:      {floatText s.rate}",
   s!"  Final Radius:       {floatText s.radius}",
   s!"  Seed:               {optionText (s.seed.map toString)}",
   s!"  Search Factor:      {optionText (s.factor.map floatText)}",
   rule '-',
   s!"  Project Root:       {s.root.text}",
   s!"  Cache Dir:          {s.cacheFolder.text}",
   rule '=',
   ""]

def report (s : Settings) : String :=
  "\n".intercalate s.reportLines ++ "\n"

end Settings

end SoundAtlas
