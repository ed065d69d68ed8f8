import SoundAtlas.Engine.Basic
import SoundAtlas.Index.Search

/-!
Queries for similar tracks, releases and artists. Only what the catalog still has is answered. A
query for artists searches each role by itself, and random ones of the answers are dropped until
there are no more than asked for.
-/

namespace SoundAtlas.Engine

inductive SimilarQuery where
  | tracks (ids : List Int) (maxCount : Int)
  | trackList (id : Int) (maxCount : Int)
  | releases (id : Int) (maxCount : Int)
  | artists (id : Int) (roles : List LinkType) (maxCount : Int)
deriving DecidableEq, Repr

inductive QueryError where
  | search (e : Search.Error)
  /-- There is nothing left to be dropped. -/
  | nothingToDrop
deriving DecidableEq, Repr

def QueryError.message? : QueryError → Option String
  | .search (.network e) => e.message?
  | .search .noCell | .nothingToDrop => none

/-- How far a search may go. -/
def maxDistance (e : Engine) (p : Published) : Option Float :=
  e.settings.factor.map (· * p.median)

def searchIndex (e : Engine) (p : Published) (index : EntityIndex) (ids : List Int)
    (maxCount : Int) (accept : Int → Bool) : Except QueryError (List Int) :=
  (Search.findSimilar p.model.network index
    { ids := ids, maxCount := maxCount, accept := accept,
      maxDistance := e.maxDistance p }).mapError .search

def similarTracks (e : Engine) (catalog : Catalog) (ids : List Int) (maxCount : Int) :
    Except QueryError (List Int) :=
  match e.published with
  | none => .ok []
  | some p => e.searchIndex p p.index.tracks ids maxCount catalog.hasTrack

def similarToList (e : Engine) (catalog : Catalog) (list : Int) (maxCount : Int) :
    Except QueryError (List Int) :=
  match catalog.list? list with
  | none => .ok []
  | some [] => .ok []
  | some ids => e.similarTracks catalog ids maxCount

def similarReleases (e : Engine) (catalog : Catalog) (release : Int) (maxCount : Int) :
    Except QueryError (List Int) :=
  match e.published with
  | none => .ok []
  | some p => e.searchIndex p p.index.releases [release] maxCount catalog.hasRelease

/-- The elements of lists in order, each at its first place. -/
def mergeFirst (xs ys : List Int) : List Int :=
  ys.foldl (fun acc y => if acc.contains y then acc else acc ++ [y]) xs

/-- The artists similar to an artist, searched in one role after the other. -/
def artistUnion (e : Engine) (catalog : Catalog) (p : Published) (artist : Int)
    (maxCount : Int) : List LinkType → List Int → Except QueryError (List Int)
  | [], found => .ok found
  | role :: roles, found => do
    let more ← e.searchIndex p (p.index.artists role) [artist] maxCount catalog.hasArtist
    artistUnion e catalog p artist maxCount roles (mergeFirst found more)

/-- Drops random elements until there are no more than asked for. -/
def trim (maxCount : Int) (xs : List Int) (g : Random.Twister) :
    Except QueryError (List Int) × Random.Twister :=
  if (xs.length : Int) ≤ maxCount then (.ok xs, g)
  else if _h : xs.length = 0 then (.error .nothingToDrop, g)
  else
    let drawn := g.below xs.length
    trim maxCount (xs.eraseIdx drawn.1) drawn.2
termination_by xs.length
decreasing_by
  have hlt := Random.Twister.below_lt (Nat.pos_of_ne_zero _h) g
  rw [List.length_eraseIdx_of_lt hlt]
  omega

def inOrder (roles : List LinkType) : List LinkType :=
  LinkType.all.filter fun t => roles.contains t

def similarArtists (e : Engine) (catalog : Catalog) (artist : Int) (roles : List LinkType)
    (maxCount : Int) : Except QueryError (List Int) × Engine :=
  match e.published with
  | none => (.ok [], e)
  | some p =>
    match e.artistUnion catalog p artist maxCount (inOrder roles) [] with
    | .error err => (.error err, e)
    | .ok found =>
      let trimmed := trim maxCount found e.evictions
      (trimmed.1, { e with evictions := trimmed.2 })

def answer (e : Engine) (catalog : Catalog) : SimilarQuery →
    Except QueryError (List Int) × Engine
  | .tracks ids maxCount => (e.similarTracks catalog ids maxCount, e)
  | .trackList id maxCount => (e.similarToList catalog id maxCount, e)
  | .releases id maxCount => (e.similarReleases catalog id maxCount, e)
  | .artists id roles maxCount => e.similarArtists catalog id roles maxCount

end SoundAtlas.Engine
