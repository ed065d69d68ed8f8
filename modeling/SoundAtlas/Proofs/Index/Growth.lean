import Mathlib
import SoundAtlas.Index.ModelIndex
import SoundAtlas.Proofs.Index.Faithful

/-!
How the indices of a model grow. With every position of a track come the track, its release and its
artists in their roles, each to its own index. The order in which positions and artists come does
not matter, as indices are settled by what they say.
-/

namespace SoundAtlas.ModelIndex

/-! ### The parts of the indices -/

inductive Part where
  | tracks
  | releases
  | artists (role : LinkType)
deriving DecidableEq

def part (m : ModelIndex) : Part → EntityIndex
  | .tracks => m.tracks
  | .releases => m.releases
  | .artists role => m.artists role

def setPart (m : ModelIndex) (k : Part) (ix : EntityIndex) : ModelIndex :=
  match k with
  | .tracks => { m with tracks := ix }
  | .releases => { m with releases := ix }
  | .artists role => m.setArtists role ix

structure Fact where
  part : Part
  entity : Int
  position : Position

/-- The indices say so. -/
def Has (m : ModelIndex) (f : Fact) : Prop :=
  f.position ∈ (m.part f.part).positionsOf f.entity

/-- All indices are of one grid and say the same both ways. -/
def Faithful (m : ModelIndex) (g : Grid) : Prop :=
  ∀ k, (m.part k).Faithful g

variable {g : Grid} {m m' m'' : ModelIndex} {p : Position} {catalog : Catalog}

lemma ordinal_injective : Function.Injective LinkType.ordinal := fun a b h => by
  cases a <;> cases b <;> first | rfl | cases h

lemma exists_ordinal {i : ℕ} (hi : i < 11) : ∃ role : LinkType, role.ordinal = i := by
  interval_cases i
  exacts [⟨.artist, rfl⟩, ⟨.arranger, rfl⟩, ⟨.composer, rfl⟩, ⟨.conductor, rfl⟩, ⟨.lyricist, rfl⟩,
    ⟨.mixer, rfl⟩, ⟨.performer, rfl⟩, ⟨.producer, rfl⟩, ⟨.releaseArtist, rfl⟩, ⟨.remixer, rfl⟩,
    ⟨.writer, rfl⟩]

lemma artists_setArtists (m : ModelIndex) (role other : LinkType) (ix : EntityIndex) :
    (m.setArtists role ix).artists other = if role = other then ix else m.artists other := by
  simp only [artists, setArtists, Vector.get_eq_getElem, Vector.getElem_set,
    ordinal_injective.eq_iff]

lemma part_setPart (m : ModelIndex) (k other : Part) (ix : EntityIndex) :
    (m.setPart k ix).part other = if k = other then ix else m.part other := by
  cases k with
  | tracks => cases other <;> simp [setPart, part, artists]
  | releases => cases other <;> simp [setPart, part, artists]
  | artists role =>
    cases other with
    | tracks => rfl
    | releases => rfl
    | artists other =>
      simp only [setPart, part, artists_setArtists, Part.artists.injEq]

/-- **Indices are settled by what they say.** -/
lemma Faithful.ext (h : m.Faithful g) (h' : m'.Faithful g) (hf : ∀ f, m.Has f ↔ m'.Has f) :
    m = m' := by
  have hpart : ∀ k, m.part k = m'.part k := fun k =>
    (h k).ext (h' k) fun entity => PositionSet.ext fun p => hf ⟨k, entity, p⟩
  obtain ⟨tracks, releases, roles⟩ := m
  obtain ⟨tracks', releases', roles'⟩ := m'
  obtain rfl : tracks = tracks' := hpart .tracks
  obtain rfl : releases = releases' := hpart .releases
  obtain rfl : roles = roles' := Vector.ext fun i hi => by
    obtain ⟨role, rfl⟩ := exists_ordinal hi
    exact hpart (.artists role)
  rfl

lemma part_empty (width height : Int) (k : Part) :
    (empty width height).part k = EntityIndex.empty width height := by
  cases k <;> simp [part, artists, empty, Vector.get_eq_getElem]

lemma faithful_empty (g : Grid) : (empty g.width g.height).Faithful g := fun k => by
  rw [part_empty]
  exact EntityIndex.faithful_empty g

lemma not_has_empty (width height : Int) (f : Fact) : ¬ (empty width height).Has f := by
  rw [Has, part_empty, EntityIndex.positionsOf_empty]
  exact Std.ExtTreeSet.not_mem_empty

/-! ### Indices that grow -/

/-- Indices of a grid that say what others say, and more. -/
structure Grown (g : Grid) (m m' : ModelIndex) (new : Fact → Prop) : Prop where
  faithful : m'.Faithful g
  has : ∀ f, m'.Has f ↔ m.Has f ∨ new f

/-- **Growing one after the other**: if each of some things makes indices grow, then all of them
together do. -/
lemma grown_foldlM {α : Type} {add : ModelIndex → α → Option ModelIndex} {new : α → Fact → Prop}
    (xs : List α) (hadd : ∀ m, m.Faithful g → ∀ x ∈ xs, ∃ m', add m x = some m' ∧
      Grown g m m' (new x)) (hm : m.Faithful g) :
    ∃ m', xs.foldlM add m = some m' ∧ Grown g m m' fun f => ∃ x ∈ xs, new x f := by
  induction xs generalizing m with
  | nil => exact ⟨m, rfl, hm, by simp⟩
  | cons x xs ih =>
    obtain ⟨m₁, h₁, hg₁⟩ := hadd m hm x List.mem_cons_self
    obtain ⟨m₂, h₂, hg₂⟩ := ih (fun m hm y hy => hadd m hm y (List.mem_cons_of_mem _ hy))
      hg₁.faithful
    refine ⟨m₂, ?_, hg₂.faithful, fun f => ?_⟩
    · rw [List.foldlM_cons, h₁]
      exact h₂
    · rw [hg₂.has, hg₁.has, or_assoc]
      simp only [List.mem_cons, exists_eq_or_imp]

/-- What comes to the indices with a track: the track, its release, and its artists. -/
def entries (track : Int) (t : Track) : List (Part × Int) :=
  (.tracks, track) :: (t.release.toList.map fun release => (.releases, release)) ++
    t.links.map fun link => (.artists link.2, link.1)

def record (p : Position) (m : ModelIndex) (entry : Part × Int) : Option ModelIndex :=
  ((m.part entry.1).insert? entry.2 p).map (m.setPart entry.1)

lemma addTrackAt_eq (m : ModelIndex) (track : Int) (t : Track) (p : Position) :
    m.addTrackAt track t p = (entries track t).foldlM (record p) m := by
  have hlinks : ∀ m : ModelIndex, (t.links.map fun link => ((.artists link.2, link.1) : Part × Int)
      ).foldlM (record p) m = t.links.foldlM (fun m link => m.addArtist p link) m := fun m => by
    rw [List.foldlM_map]
    rfl
  rw [entries, List.cons_append, List.foldlM_cons, addTrackAt]
  simp only [List.foldlM_append, hlinks]
  cases hn : m.tracks.insert? track p with
  | none => simp [record, part, hn]
  | some tracks =>
    cases hr : t.release with
    | none => simp [record, part, hn, addRelease, setPart]
    | some release =>
      simp [record, part, hn, addRelease, setPart, Option.bind_map]
      rfl

lemma grown_record (hm : m.Faithful g) (hp : g.Contains p) (entry : Part × Int) :
    ∃ m', record p m entry = some m' ∧
      Grown g m m' fun f => (f.part, f.entity) = entry ∧ f.position = p := by
  obtain ⟨k, entity⟩ := entry
  have hix := (hm k).add hp entity
  refine ⟨m.setPart k ((m.part k).add entity p).2, ?_, fun other => ?_, fun f => ?_⟩
  · rw [record, (hm k).insert? hp entity]
    rfl
  · rw [part_setPart]
    split
    · exact hix
    · exact hm other
  · rw [Has, part_setPart, Prod.mk.injEq]
    split
    · rename_i hk
      rw [EntityIndex.mem_positionsOf_add, Has, hk]
      simp [eq_comm]
    · rename_i hk
      simp [Has, Ne.symm hk]

lemma grown_addTrackAt (hm : m.Faithful g) (hp : g.Contains p) (track : Int) (t : Track) :
    ∃ m', m.addTrackAt track t p = some m' ∧
      Grown g m m' fun f => (f.part, f.entity) ∈ entries track t ∧ f.position = p := by
  obtain ⟨m', hm', hg⟩ := grown_foldlM (entries track t)
    (fun m hm entry _ => grown_record hm hp entry) hm
  refine ⟨m', by rw [addTrackAt_eq, hm'], hg.faithful, fun f => ?_⟩
  rw [hg.has]
  simp

/-- **A track with its positions**, in whatever order they come, and as often as they do. -/
lemma grown_positions (hm : m.Faithful g) {order : List Position}
    (ho : ∀ p ∈ order, g.Contains p) (track : Int) (t : Track) :
    ∃ m', order.foldlM (fun m p => m.addTrackAt track t p) m = some m' ∧
      Grown g m m' fun f => (f.part, f.entity) ∈ entries track t ∧ f.position ∈ order := by
  obtain ⟨m', hm', hg⟩ := grown_foldlM order
    (fun m hm p hp => grown_addTrackAt hm (ho p hp) track t) hm
  refine ⟨m', hm', hg.faithful, fun f => ?_⟩
  rw [hg.has]
  refine or_congr_right ⟨?_, fun ⟨hf, hp⟩ => ⟨_, hp, hf, rfl⟩⟩
  rintro ⟨p, hp, hf, rfl⟩
  exact ⟨hf, hp⟩

end SoundAtlas.ModelIndex
