import SoundAtlas.CommandLine.Usage
import SoundAtlas.Number.Reading
import SoundAtlas.Settings.Basic

/-!
What can be asked for on the command line, and how command lines ask for it.
-/

namespace SoundAtlas.CommandLine

structure ModelSource where
  /-- The file of the catalog. -/
  catalog : String
  /-- The folder of the features. -/
  features : String
  iterations : Option Int
  seed : Option Int
deriving DecidableEq, Repr

inductive Request where
  | train (source : ModelSource) (force : Bool)
  | similarTracks (source : ModelSource) (tracks : List Int) (list : Option Int) (maxCount : Int)
  | similarReleases (source : ModelSource) (release maxCount : Int)
  | similarArtists (source : ModelSource) (artist : Int) (roles : List String) (maxCount : Int)
  | cacheInfo
  | clearCache
  | showConfig
deriving DecidableEq, Repr

def Request.source? : Request → Option ModelSource
  | .train m _ => some m
  | .similarTracks m _ _ _ => some m
  | .similarReleases m _ _ => some m
  | .similarArtists m _ _ _ => some m
  | .cacheInfo | .clearCache | .showConfig => none

/-- The settings with what a request says instead. Zero iterations say nothing. -/
def ModelSource.override (m : ModelSource) (s : Settings) : Settings :=
  { s with
    iterations := match m.iterations with
      | some n => if n = 0 then s.iterations else n
      | none => s.iterations
    seed := m.seed <|> s.seed }

/-! ### Arguments -/

/-- The arguments of a command as far as they have been read. -/
structure Draft where
  catalog : Option String
  features : Option String
  iterations : Option Int
  seed : Option Int
  force : Bool
  tracks : List Int
  list : Option Int
  release : Option Int
  artist : Option Int
  roles : List String
  maxCount : Int

def Draft.blank : Draft where
  catalog := none
  features := none
  iterations := none
  seed := none
  force := false
  tracks := []
  list := none
  release := none
  artist := none
  roles := []
  maxCount := 10

def textValue {α : Type} (set : String → α → α) : Effect α :=
  .value fun s a => some (set s a)

def wholeValue {α : Type} (set : Int → α → α) : Effect α :=
  .value fun s a => (Number.readWhole? s).map fun n => set n a

def helpArgument {α : Type} : Argument α where
  names := ["-h", "--help"]
  effect := .help
  summary := "show this help message and exit"
  isRequired := false

def sourceArguments : List (Argument Draft) :=
  [helpArgument,
   { names := ["--catalog"]
     effect := textValue fun s d => { d with catalog := some s }
     summary := "Catalog JSON file"
     isRequired := true },
   { names := ["--features-dir"]
     effect := textValue fun s d => { d with features := some s }
     summary := "Directory of <track_id>.json analysis files"
     isRequired := true },
   { names := ["--iterations"]
     effect := wholeValue fun n d => { d with iterations := some n }
     summary := "Training iterations"
     isRequired := false },
   { names := ["--seed"]
     effect := wholeValue fun n d => { d with seed := some n }
     summary := "Random seed"
     isRequired := false }]

/-- The argument that says how many results are wanted. -/
def countArgument : Argument Draft where
  names := ["--count", "-n"]
  effect := wholeValue fun n d => { d with maxCount := n }
  summary := "Maximum results"
  isRequired := false

def Draft.source? (d : Draft) : Option ModelSource := do
  return { catalog := ← d.catalog, features := ← d.features,
           iterations := d.iterations, seed := d.seed }

/-! ### Commands -/

structure Command where
  name : String
  summary : String
  arguments : List (Argument Draft)
  /-- What is asked for, unless something that is needed has not been said. -/
  request? : Draft → Option Request

def trainCommand : Command where
  name := "train"
  summary := "Train the map or reuse the cached model"
  arguments := sourceArguments ++
    [{ names := ["--force"]
       effect := .flag fun d => { d with force := true }
       summary := "Ignore the cache and retrain"
       isRequired := false }]
  request? d := do return .train (← d.source?) d.force

def tracksCommand : Command where
  name := "similar-tracks"
  summary := "Find similar tracks"
  arguments := sourceArguments ++
    [{ names := ["--track"]
       effect := wholeValue fun n d => { d with tracks := d.tracks ++ [n] }
       summary := "Track ID (repeatable)"
       isRequired := false },
     { names := ["--track-list"]
       effect := wholeValue fun n d => { d with list := some n }
       summary := "Track list ID"
       isRequired := false },
     countArgument]
  request? d := do return .similarTracks (← d.source?) d.tracks d.list d.maxCount

def releasesCommand : Command where
  name := "similar-releases"
  summary := "Find similar releases"
  arguments := sourceArguments ++
    [{ names := ["--release"]
       effect := wholeValue fun n d => { d with release := some n }
       summary := "Release ID"
       isRequired := true },
     countArgument]
  request? d := do return .similarReleases (← d.source?) (← d.release) d.maxCount

def artistsCommand : Command where
  name := "similar-artists"
  summary := "Find similar artists"
  arguments := sourceArguments ++
    [{ names := ["--artist"]
       effect := wholeValue fun n d => { d with artist := some n }
       summary := "Artist ID"
       isRequired := true },
     { names := ["--link-type"]
       effect := textValue fun s d => { d with roles := d.roles ++ [s] }
       summary := "Artist link type, e.g. performer, composer (repeatable, default: all)"
       isRequired := false },
     countArgument]
  request? d := do return .similarArtists (← d.source?) (← d.artist) d.roles d.maxCount

def plainCommand (name summary : String) (r : Request) : Command where
  name := name
  summary := summary
  arguments := [helpArgument]
  request? _ := some r

def commands : List Command :=
  [trainCommand, tracksCommand, releasesCommand, artistsCommand,
   plainCommand "cache-info" "Show cached model information" .cacheInfo,
   plainCommand "clear-cache" "Delete the cached model" .clearCache,
   plainCommand "show-config" "Validate and print configuration" .showConfig]

/-! ### The program -/

def programName : String := "somrec"

/-- The arguments before the command: the folder of the cache, if it has been named. How much is
logged does not matter here. -/
def commonArguments : List (Argument (Option String)) :=
  [helpArgument,
   { names := ["--verbose", "-v"]
     effect := .flag id
     summary := "Verbose output"
     isRequired := false },
   { names := ["--cache-dir"]
     effect := textValue fun s _ => some s
     summary := "Model cache directory"
     isRequired := false }]

def closing : String :=
  let source := " --catalog catalog.json --features-dir features/"
  "\n".intercalate
    ["Examples:",
     "  somrec train" ++ source,
     "  somrec train" ++ source ++ " --force",
     "  somrec similar-tracks" ++ source ++ " --track 12",
     "  somrec similar-artists" ++ source ++ " --artist 3 --link-type performer",
     "  somrec cache-info",
     "        "]

def manual : Manual (Option String) where
  program := programName
  description := "somrec - SOM similarity over audio features"
  arguments := commonArguments
  commands := commands.map fun c => (c.name, c.summary)
  closing := closing

def Command.manual (c : Command) : Manual Draft where
  program := programName ++ " " ++ c.name
  description := ""
  arguments := c.arguments
  commands := []
  closing := ""

inductive Asked where
  | help (text : String)
  | misuse
  /-- A request, and the folder of the cache if it has been named. -/
  | request (cache : Option String) (r : Request)

def Command.asked (c : Command) (cache : Option String) (leftover : Bool) (words : List String) :
    Asked :=
  match read c.arguments false Draft.blank words with
  | .help => .help c.manual.help
  | .misuse => .misuse
  | .done d more _ =>
    match c.request? d with
    | some r => if leftover || more then .misuse else .request cache r
    | none => .misuse

/-- What the words of a command line ask for; help if nothing. -/
def Asked.ofWords (words : List String) : Asked :=
  match read commonArguments true none words with
  | .help => .help manual.help
  | .misuse => .misuse
  | .done _ leftover none => if leftover then .misuse else .help manual.help
  | .done cache leftover (some (name, rest)) =>
    match commands.find? fun c => c.name = name with
    | some c => c.asked cache leftover rest
    | none => .misuse

end SoundAtlas.CommandLine
