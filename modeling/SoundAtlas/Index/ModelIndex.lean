import SoundAtlas.Catalog.Basic
import SoundAtlas.Index.EntityIndex

/-!
The indices of a model: the tracks at their positions, and with each track its release and its
artists, the latter in one index for each role.
-/

namespace SoundAtlas

abbrev TrackPositions := Std.ExtTreeMap Int PositionSet

structure ModelIndex where
  tracks : EntityIndex
  releases : EntityIndex
  roles : Vector EntityIndex 11

theorem LinkType.ordinal_lt (t : LinkType) : t.ordinal < 11 := by
  cases t <;> decide

namespace ModelIndex

def empty (width height : Int) : ModelIndex where
  tracks := .empty width height
  releases := .empty width height
  roles := Vector.replicate 11 (.empty width height)

def artists (m : ModelIndex) (t : LinkType) : EntityIndex :=
  m.roles.get ⟨t.ordinal, t.ordinal_lt⟩

def setArtists (m : ModelIndex) (t : LinkType) (ix : EntityIndex) : ModelIndex :=
  { m with roles := m.roles.set t.ordinal ix t.ordinal_lt }

def addArtist (m : ModelIndex) (p : Position) (link : ArtistLink) : Option ModelIndex :=
  ((m.artists link.2).insert? link.1 p).map (m.setArtists link.2)

def addRelease (m : ModelIndex) (p : Position) : Option Int → Option ModelIndex
  | none => some m
  | some release => (m.releases.insert? release p).map fun ix => { m with releases := ix }

def addTrackAt (m : ModelIndex) (track : Int) (t : Track) (p : Position) : Option ModelIndex := do
  let tracks ← m.tracks.insert? track p
  let m ← { m with tracks := tracks : ModelIndex }.addRelease p t.release
  t.links.foldlM (fun m link => m.addArtist p link) m

def addTrack (m : ModelIndex) (track : Int) (t : Track) (positions : PositionSet) :
    Option ModelIndex :=
  positions.toList.foldlM (fun m p => m.addTrackAt track t p) m

/-! ### Building -/

inductive BuildError where
  /-- A position has no cell. -/
  | noCell
  | catalog (e : Catalog.Fault)
deriving DecidableEq, Repr

structure BuildWatch (σ : Type) where
  /-- Whether to stop. -/
  poll : σ → Bool × σ
  /-- Hears that the release of a track is looked up. -/
  lookUp : σ → σ

/-- Adds tracks one after the other; the watcher is asked before each. No indices are left when the
watcher wants to stop. -/
def addTracks {σ : Type} (catalog : Catalog) (watch : BuildWatch σ) :
    List (Int × PositionSet) → ModelIndex → σ → Except BuildError (Option ModelIndex) × σ
  | [], m, w => (.ok (some m), w)
  | (track, positions) :: rest, m, w =>
    let asked := watch.poll w
    if asked.1 then (.ok none, asked.2)
    else
      let w := watch.lookUp asked.2
      match catalog.release track, catalog.links track with
      | .error e, _ => (.error (.catalog e), w)
      | .ok _, .error e => (.error (.catalog e), w)
      | .ok release, .ok links =>
        match m.addTrack track ⟨release, links⟩ positions with
        | none => (.error .noCell, w)
        | some m => addTracks catalog watch rest m w

/-- The indices of tracks at their positions, in ascending order of the tracks. -/
def build {σ : Type} (width height : Int) (positions : TrackPositions) (catalog : Catalog)
    (watch : BuildWatch σ) (w : σ) : Except BuildError (Option ModelIndex) × σ :=
  addTracks catalog watch positions.toList (.empty width height) w

end ModelIndex

end SoundAtlas
