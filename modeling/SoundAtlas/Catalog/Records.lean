import Std.Data.ExtTreeMap
import Std.Data.ExtTreeSet
import SoundAtlas.Catalog.LinkType
import SoundAtlas.Json.Access
import SoundAtlas.Json.Parser

/-!
The records of a catalog: which tracks, releases and artists there are, and how tracks relate to
the others. A release or an artist outlives its tracks.
-/

namespace SoundAtlas

abbrev ArtistLink := Int × LinkType

structure Track where
  release : Option Int
  links : List ArtistLink
deriving DecidableEq, Repr

structure Records where
  tracks : Std.ExtTreeMap Int Track
  releases : Std.ExtTreeSet Int
  artists : Std.ExtTreeSet Int
  lists : Std.ExtTreeMap Int (List Int)

namespace Records

def trackIds (r : Records) : List Int :=
  r.tracks.keys

def release? (r : Records) (track : Int) : Option Int :=
  r.tracks[track]?.bind (·.release)

/-- The artists of a track; none if there is no such track. -/
def links (r : Records) (track : Int) : List ArtistLink :=
  match r.tracks[track]? with
  | some t => t.links
  | none => []

def list? (r : Records) (list : Int) : Option (List Int) :=
  r.lists[list]?

def hasTrack (r : Records) (track : Int) : Bool :=
  r.tracks.contains track

def hasRelease (r : Records) (release : Int) : Bool :=
  r.releases.contains release

def hasArtist (r : Records) (artist : Int) : Bool :=
  r.artists.contains artist

/-- Records a track, in place of one of the same name, with its release and its artists. -/
def addTrack (r : Records) (track : Int) (t : Track) : Records where
  tracks := r.tracks.insert track t
  releases := t.release.elim r.releases r.releases.insert
  artists := r.artists.insertMany (t.links.map (·.1))
  lists := r.lists

/-- Forgets a track, but not its release and artists. -/
def removeTrack (r : Records) (track : Int) : Records :=
  { r with tracks := r.tracks.erase track }

def removeRelease (r : Records) (release : Int) : Records :=
  { r with releases := r.releases.erase release }

def removeArtist (r : Records) (artist : Int) : Records :=
  { r with artists := r.artists.erase artist }

/-- The records of rows, of which the last of a track counts. Without a list of releases those of
the tracks are recorded, and likewise for the artists. -/
def ofRows (rows : List (Int × Track)) (releases artists : Option (List Int))
    (lists : List (Int × List Int)) : Records :=
  let tracks := Std.ExtTreeMap.ofList rows
  { tracks := tracks
    releases := Std.ExtTreeSet.ofList
      (releases.getD (tracks.toList.filterMap fun e => e.2.release))
    artists := Std.ExtTreeSet.ofList
      (artists.getD (tracks.toList.flatMap fun e => e.2.links.map (·.1)))
    lists := Std.ExtTreeMap.ofList lists }

/-! ### Reading -/

inductive Error where
  | shape (e : Json.ReadError)
  | linkType (e : LinkType.Error)
  | syntaxError (e : Json.SyntaxError)
deriving DecidableEq, Repr

def Error.message? : Error → Option String
  | .linkType e => e.message?
  | .shape _ | .syntaxError _ => none

def read {α : Type} (x : Except Json.ReadError α) : Except Error α :=
  x.mapError .shape

/-- The whole numbers that a value goes through. -/
def readInts (v : Json) : Except Error (List Int) := do
  (← read v.elements).mapM fun x => read x.toInt

/-- An artist in a role; without a role it is the artist of the track. -/
def readLink (v : Json) : Except Error ArtistLink := do
  let id ← read (v.member "id")
  let id ← read id.toInt
  let type ← read (v.lookup "link_type")
  let type ← (LinkType.ofJson (type.getD (Json.string "artist"))).mapError .linkType
  return (id, type)

def readRow (v : Json) : Except Error (Int × Track) := do
  let links ← read (v.lookup "artists")
  let links ← (← read (links.getD (.arr [])).elements).mapM readLink
  let release ← read (v.lookup "release")
  let id ← read (v.member "id")
  let id ← read id.toInt
  match release with
  | none => return (id, ⟨none, links⟩)
  | some .null => return (id, ⟨none, links⟩)
  | some r =>
    let r ← read r.toInt
    return (id, ⟨some r, links⟩)

/-- A list of whole numbers that may be left out. -/
def readOptionalInts : Option Json → Except Error (Option (List Int))
  | none => .ok none
  | some .null => .ok none
  | some v => (readInts v).map some

def readList (m : Json.Text × Json) : Except Error (Int × List Int) := do
  let id ← read (Json.str m.1).toInt
  let tracks ← readInts m.2
  return (id, tracks)

def readLists : Option Json → Except Error (List (Int × List Int))
  | none => .ok []
  | some (.obj ms) => ms.mapM readList
  | some _ => .error (.shape .notObject)

def ofJson (v : Json) : Except Error Records := do
  let rows ← read (v.lookup "tracks")
  let rows ← (← read (rows.getD (.arr [])).elements).mapM readRow
  let releases ← read (v.lookup "releases")
  let artists ← read (v.lookup "artists")
  let releases ← readOptionalInts releases
  let artists ← readOptionalInts artists
  let lists ← readLists (← read (v.lookup "track_lists"))
  return ofRows rows releases artists lists

/-- The records that a text holds, whose document is nested to the given depth at most. -/
def ofText (depth : Nat) (s : String) : Except Error Records :=
  match Json.parse depth s with
  | .ok v => ofJson v
  | .error e => .error (.syntaxError e)

end Records

end SoundAtlas
