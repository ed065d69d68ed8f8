import SoundAtlas.Catalog.Records

/-!
What is asked of a catalog: which tracks can be trained on, how they relate to releases and artists,
and what exists now.
-/

namespace SoundAtlas

structure Catalog.Fault where
  reason : String
deriving DecidableEq, Repr

/-- A catalog. What is asked while a model is made may fail. -/
structure Catalog where
  trackIds : Except Catalog.Fault (List Int)
  release : Int → Except Catalog.Fault (Option Int)
  links : Int → Except Catalog.Fault (List ArtistLink)
  list? : Int → Option (List Int)
  hasTrack : Int → Bool
  hasRelease : Int → Bool
  hasArtist : Int → Bool

def Records.catalog (r : Records) : Catalog where
  trackIds := .ok r.trackIds
  release track := .ok (r.release? track)
  links track := .ok (r.links track)
  list? := r.list?
  hasTrack := r.hasTrack
  hasRelease := r.hasRelease
  hasArtist := r.hasArtist

end SoundAtlas
