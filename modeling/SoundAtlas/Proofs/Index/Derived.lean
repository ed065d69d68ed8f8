import Mathlib
import SoundAtlas.Model.Basic
import SoundAtlas.Proofs.Index.Building
import SoundAtlas.Proofs.Index.Growth

/-!
What the indices of a model hold. The positions of a release or an artist are those of its tracks
together, and nothing else comes to them; and the orders in which a model is gone through leave no
trace.
-/

namespace SoundAtlas

/-- The positions of all tracks lie on the grid. -/
def Grid.Holds (g : Grid) (ps : TrackPositions) : Prop :=
  ∀ track, ∀ p ∈ ps.getD track ∅, g.Contains p

lemma Grid.holds_empty (g : Grid) : g.Holds ∅ := fun track p hp => by simp at hp

/-- The positions of the tracks of a model lie on its grid. -/
def Model.OnGrid (m : Model) : Prop :=
  m.network.grid.Holds m.positions

lemma Grid.Holds.insert {g : Grid} {ps : TrackPositions} (h : g.Holds ps) (track : Int)
    {set : PositionSet} (hs : ∀ p ∈ set, g.Contains p) : g.Holds (ps.insert track set) := by
  intro other p hp
  rw [Std.ExtTreeMap.getD_insert] at hp
  split at hp
  · exact hs p hp
  · exact h other p hp

def Catalog.track (catalog : Catalog) (id : Int) : Except Catalog.Fault Track :=
  match catalog.release id, catalog.links id with
  | .error e, _ => .error e
  | .ok _, .error e => .error e
  | .ok release, .ok links => .ok ⟨release, links⟩

namespace ModelIndex

/-! ### The positions of a track in any order -/

/-- The indices with one more track, whose positions come in the given order. -/
def withTrackInOrder (catalog : Catalog) (m : ModelIndex) (track : Int) (order : List Position) :
    Except BuildError ModelIndex :=
  match catalog.track track with
  | .error e => .error (.catalog e)
  | .ok t =>
    match order.foldlM (fun m p => m.addTrackAt track t p) m with
    | none => .error .noCell
    | some m => .ok m

def addTracksInOrder {σ : Type} (catalog : Catalog) (watch : BuildWatch σ)
    (order : Int → List Position) :
    List Int → ModelIndex → σ → Except BuildError (Option ModelIndex) × σ
  | [], m, w => (.ok (some m), w)
  | track :: rest, m, w =>
    if (watch.poll w).1 then (.ok none, (watch.poll w).2)
    else
      match withTrackInOrder catalog m track (order track) with
      | .error e => (.error e, watch.lookUp (watch.poll w).2)
      | .ok m => addTracksInOrder catalog watch order rest m (watch.lookUp (watch.poll w).2)

/-- `build` with the positions of each track in the given order. -/
def buildInOrder {σ : Type} (width height : Int) (positions : TrackPositions) (catalog : Catalog)
    (order : Int → List Position) (watch : BuildWatch σ) (w : σ) :
    Except BuildError (Option ModelIndex) × σ :=
  addTracksInOrder catalog watch order positions.keys (.empty width height) w

variable {g : Grid} {m m' : ModelIndex} {p : Position} {catalog : Catalog}

/-! ### One track more -/

/-- A track brings an entity to a part. -/
def Brings (catalog : Catalog) (track : Int) (k : Part) (entity : Int) : Prop :=
  ∃ t, catalog.track track = .ok t ∧ (k, entity) ∈ entries track t

lemma withTrack_eq (catalog : Catalog) (m : ModelIndex) (row : Int × PositionSet) :
    withTrack catalog m row = withTrackInOrder catalog m row.1 row.2.toList := by
  unfold withTrack withTrackInOrder Catalog.track
  cases catalog.release row.1 with
  | error e => rfl
  | ok release =>
    cases catalog.links row.1 with
    | error e => rfl
    | ok links => rfl

/-- **One track more**, with its positions in any order: the catalog fails, or the indices grow by
what the track brings. -/
lemma grown_withTrack (hm : m.Faithful g) (catalog : Catalog) (track : Int) {order : List Position}
    (ho : ∀ p ∈ order, g.Contains p) :
    (∃ e, catalog.track track = .error e ∧
        withTrackInOrder catalog m track order = .error (.catalog e)) ∨
      (∃ t, catalog.track track = .ok t) ∧
        ∃ m', withTrackInOrder catalog m track order = .ok m' ∧
          Grown g m m' fun f => Brings catalog track f.part f.entity ∧ f.position ∈ order := by
  cases ht : catalog.track track with
  | error e => exact Or.inl ⟨e, rfl, by rw [withTrackInOrder, ht]⟩
  | ok t =>
    obtain ⟨m', hm', hg⟩ := grown_positions hm ho track t
    refine Or.inr ⟨⟨t, rfl⟩, m', by rw [withTrackInOrder, ht]; simp only [hm'], hg.faithful,
      fun f => ?_⟩
    rw [hg.has]
    simp only [Brings, ht, Except.ok.injEq, exists_eq_left']

/-- Two catalogs have the same releases and the same artists for every track; how often, and in
which order, they name an artist does not count. -/
structure Agree (a b : Catalog) : Prop where
  release : ∀ track, a.release track = b.release track
  links : ∀ track, (a.links track).map List.toFinset = (b.links track).map List.toFinset

lemma Agree.track {a b : Catalog} (h : Agree a b) (track : Int) :
    (∃ e, a.track track = .error e ∧ b.track track = .error e) ∨
      ∃ t t', a.track track = .ok t ∧ b.track track = .ok t' ∧
        ∀ entry, entry ∈ entries track t ↔ entry ∈ entries track t' := by
  have hlinks := h.links track
  simp only [Catalog.track, h.release]
  cases b.release track with
  | error e => exact Or.inl ⟨e, rfl, rfl⟩
  | ok release =>
    cases ha : a.links track with
    | error e =>
      cases hb : b.links track with
      | error e' =>
        rw [ha, hb] at hlinks
        obtain rfl : e = e' := Except.error.inj hlinks
        exact Or.inl ⟨e, rfl, rfl⟩
      | ok links' =>
        rw [ha, hb] at hlinks
        cases hlinks
    | ok links =>
      cases hb : b.links track with
      | error e' =>
        rw [ha, hb] at hlinks
        cases hlinks
      | ok links' =>
        rw [ha, hb] at hlinks
        have hmem : ∀ link, link ∈ links ↔ link ∈ links' := fun link => by
          rw [← List.mem_toFinset, Except.ok.inj hlinks, List.mem_toFinset]
        refine Or.inr ⟨_, _, rfl, rfl, fun entry => ?_⟩
        simp only [entries, List.mem_append, List.mem_map, hmem]

lemma Agree.brings {a b : Catalog} (h : Agree a b) {track entity : Int} {k : Part} :
    Brings a track k entity ↔ Brings b track k entity := by
  unfold Brings
  obtain ⟨e, ha, hb⟩ | ⟨t, t', ha, hb, hmem⟩ := h.track track
  · simp [ha, hb]
  · simp [ha, hb, hmem]

/-- **Neither the order of the positions nor that of the artists matters** to what a
track brings. -/
lemma withTrackInOrder_congr {a b : Catalog} (h : Agree a b) (hm : m.Faithful g) {track : Int}
    {order others : List Position} (ho : ∀ p ∈ order, g.Contains p)
    (hmem : ∀ p, p ∈ order ↔ p ∈ others) :
    withTrackInOrder a m track order = withTrackInOrder b m track others := by
  have ho' : ∀ p ∈ others, g.Contains p := fun p hp => ho p ((hmem p).2 hp)
  obtain ⟨e, ha, hb⟩ | ⟨t, t', ha, hb, -⟩ := h.track track
  · rw [withTrackInOrder, withTrackInOrder, ha, hb]
  · obtain ⟨e, he, -⟩ | ⟨-, m₁, h₁, hg₁⟩ := grown_withTrack hm a track ho
    · rw [ha] at he
      cases he
    obtain ⟨e, he, -⟩ | ⟨-, m₂, h₂, hg₂⟩ := grown_withTrack hm b track ho'
    · rw [hb] at he
      cases he
    rw [h₁, h₂, hg₁.faithful.ext hg₂.faithful fun f => by rw [hg₁.has, hg₂.has, h.brings, hmem]]

/-! ### Track after track -/

variable {σ : Type} {watch : BuildWatch σ} {w : σ}

/-- What becomes of indices to which tracks are added: the watcher has stopped it, the catalog has
failed for one of the tracks, or they have grown by what all tracks bring. -/
inductive Built (g : Grid) (catalog : Catalog) (rows : List (Int × PositionSet)) (m : ModelIndex) :
    Except BuildError (Option ModelIndex) → Prop where
  | stopped : Built g catalog rows m (.ok none)
  | failed (row : Int × PositionSet) (e : Catalog.Fault) (hrow : row ∈ rows)
      (he : catalog.track row.1 = .error e) : Built g catalog rows m (.error (.catalog e))
  | grown (m' : ModelIndex) (hall : ∀ row ∈ rows, ∃ t, catalog.track row.1 = .ok t)
      (h : Grown g m m' fun f => ∃ row ∈ rows, Brings catalog row.1 f.part f.entity ∧
        f.position ∈ row.2) : Built g catalog rows m (.ok (some m'))

lemma built_addTracks (catalog : Catalog) (watch : BuildWatch σ) (w : σ)
    {rows : List (Int × PositionSet)} (hrows : ∀ row ∈ rows, ∀ p ∈ row.2, g.Contains p)
    (hm : m.Faithful g) :
    Built g catalog rows m (addTracks catalog watch rows m w).1 := by
  induction rows generalizing m w with
  | nil => exact .grown m (by simp) ⟨hm, by simp⟩
  | cons row rest ih =>
    obtain ⟨hrow, hrest⟩ := List.forall_mem_cons.1 hrows
    rw [addTracks_cons, withTrack_eq]
    split
    · exact .stopped
    · have hpos : ∀ p ∈ row.2.toList, g.Contains p := fun p hp =>
        hrow p (Std.ExtTreeSet.mem_toList.1 hp)
      obtain ⟨e, he, hw⟩ | ⟨ht, m', hw, hg⟩ := grown_withTrack hm catalog row.1 hpos
      · rw [hw]
        exact .failed row e List.mem_cons_self he
      · rw [hw]
        have hi := ih (watch.lookUp (watch.poll w).2) hrest hg.faithful
        dsimp only
        generalize (addTracks catalog watch rest m' (watch.lookUp (watch.poll w).2)).1 = r at hi
        cases hi with
        | stopped => exact .stopped
        | failed row' e hrow' he => exact .failed row' e (List.mem_cons_of_mem _ hrow') he
        | grown m'' hall hg' =>
          refine .grown m'' (List.forall_mem_cons.2 ⟨ht, hall⟩) ⟨hg'.faithful, fun f => ?_⟩
          rw [hg'.has, hg.has, or_assoc]
          simp only [List.mem_cons, exists_eq_or_imp, Std.ExtTreeSet.mem_toList]

/-- Neither the order of positions nor that of artists matters to tracks that are added one after
the other. -/
lemma addTracksInOrder_eq {other : Catalog} (h : Agree other catalog)
    {rows : List (Int × PositionSet)} (hrows : ∀ row ∈ rows, ∀ p ∈ row.2, g.Contains p)
    {order : Int → List Position} (ho : ∀ row ∈ rows, ∀ p, p ∈ order row.1 ↔ p ∈ row.2)
    (hm : m.Faithful g) :
    addTracksInOrder other watch order (rows.map (·.1)) m w =
      addTracks catalog watch rows m w := by
  induction rows generalizing m w with
  | nil => rfl
  | cons row rest ih =>
    obtain ⟨hrow, hrest⟩ := List.forall_mem_cons.1 hrows
    obtain ⟨horow, horest⟩ := List.forall_mem_cons.1 ho
    have hpos : ∀ p ∈ row.2.toList, g.Contains p := fun p hp =>
      hrow p (Std.ExtTreeSet.mem_toList.1 hp)
    have hstep : withTrackInOrder other m row.1 (order row.1) =
        withTrackInOrder catalog m row.1 row.2.toList :=
      withTrackInOrder_congr h hm (fun p hp => hrow p ((horow p).1 hp))
        fun p => by rw [horow, Std.ExtTreeSet.mem_toList]
    rw [addTracks_cons, withTrack_eq, List.map_cons, addTracksInOrder, hstep]
    refine ite_congr rfl (fun _ => rfl) fun _ => ?_
    obtain ⟨e, -, hw⟩ | ⟨-, m', hw, hg⟩ := grown_withTrack hm catalog row.1 hpos
    · rw [hw]
    · rw [hw]
      exact ih hrest horest hg.faithful

/-- **The order of the tracks does not matter** either, if the catalog knows them all. -/
lemma addTracks_perm {rows rows' : List (Int × PositionSet)} (hperm : rows.Perm rows')
    (hrows : ∀ row ∈ rows, ∀ p ∈ row.2, g.Contains p) (hm : m.Faithful g) {index : ModelIndex}
    (h : (addTracks catalog quiet rows m ()).1 = .ok (some index)) :
    (addTracks catalog quiet rows' m ()).1 = .ok (some index) := by
  have hbuilt := built_addTracks catalog quiet () hrows hm
  have hbuilt' := built_addTracks catalog quiet ()
    (fun row hrow => hrows row (hperm.mem_iff.2 hrow)) hm
  have hgo : (addTracks catalog quiet rows' m ()).1 ≠ .ok none := addTracks_quiet_ne_none
  rw [h] at hbuilt
  generalize (addTracks catalog quiet rows' m ()).1 = r at hbuilt' hgo ⊢
  cases hbuilt with
  | grown _ hall hg =>
    cases hbuilt' with
    | stopped => exact absurd rfl hgo
    | failed row e hrow he =>
      obtain ⟨t, ht⟩ := hall row (hperm.mem_iff.2 hrow)
      rw [ht] at he
      cases he
    | grown index' _ hg' =>
      obtain rfl : index' = index := hg'.faithful.ext hg.faithful fun f => by
        simp only [hg'.has, hg.has, hperm.mem_iff]
      rfl

lemma exists_build {ps : TrackPositions} (hps : ∀ row ∈ ps.toList, ∀ p ∈ row.2, g.Contains p)
    (hall : ∀ row ∈ ps.toList, ∃ t, catalog.track row.1 = .ok t) :
    ∃ index, build g.width g.height ps catalog quiet () = (.ok (some index), ()) := by
  have hbuilt := built_addTracks catalog quiet () hps (faithful_empty g)
  have hgo : (addTracks catalog quiet ps.toList (empty g.width g.height) ()).1 ≠ .ok none :=
    addTracks_quiet_ne_none
  unfold build
  generalize addTracks catalog quiet ps.toList (empty g.width g.height) () = built at hbuilt hgo ⊢
  obtain ⟨r, ⟨⟩⟩ := built
  dsimp only at hbuilt hgo
  cases hbuilt with
  | stopped => exact absurd rfl hgo
  | failed row e hrow he =>
    obtain ⟨t, ht⟩ := hall row hrow
    rw [ht] at he
    cases he
  | grown index _ _ => exact ⟨index, rfl⟩

/-! ### The questions of a watcher -/

def recorded (watch : BuildWatch σ) : BuildWatch (σ × List Bool) where
  poll w := ((watch.poll w.1).1, (watch.poll w.1).2, w.2 ++ [(watch.poll w.1).1])
  lookUp w := (watch.lookUp w.1, w.2)

/-- **Adding tracks is stopped** if and only if one of the answers on the way says so. -/
lemma addTracks_recorded (catalog : Catalog) (watch : BuildWatch σ)
    (rows : List (Int × PositionSet)) (m : ModelIndex) (w : σ) (answers : List Bool) :
    (addTracks catalog (recorded watch) rows m (w, answers)).1 =
      (addTracks catalog watch rows m w).1 ∧
      ∃ more, (addTracks catalog (recorded watch) rows m (w, answers)).2.2 = answers ++ more ∧
        ((addTracks catalog watch rows m w).1 = .ok none ↔ true ∈ more) := by
  induction rows generalizing m w answers with
  | nil => exact ⟨rfl, [], (List.append_nil _).symm, by simp [addTracks]⟩
  | cons row rest ih =>
    rw [addTracks_cons, addTracks_cons]
    cases hpoll : (watch.poll w).1 with
    | true => exact ⟨by simp [recorded, hpoll], [true], by simp [recorded, hpoll], by simp⟩
    | false =>
      have hpoll' : ((recorded watch).poll (w, answers)).1 = false := hpoll
      rw [hpoll', if_neg Bool.false_ne_true, if_neg Bool.false_ne_true]
      cases withTrack catalog m row with
      | error e => exact ⟨rfl, [false], by simp [recorded, hpoll], by simp⟩
      | ok m' =>
        obtain ⟨hsame, more, hmore, hiff⟩ :=
          ih m' (watch.lookUp (watch.poll w).2) (answers ++ [false])
        have hw : (recorded watch).lookUp ((recorded watch).poll (w, answers)).2 =
            (watch.lookUp (watch.poll w).2, answers ++ [false]) := by
          simp [recorded, hpoll]
        rw [hw]
        exact ⟨hsame, false :: more, by simpa using hmore, by simpa using hiff⟩

/-! ### All tracks -/

/-- Indices that follow from the positions of tracks and a catalog. -/
structure Derived (index : ModelIndex) (g : Grid) (ps : TrackPositions) (catalog : Catalog) :
    Prop where
  tracks : ∀ track, index.tracks.positionsOf track = ps.getD track ∅
  releases : ∀ release p, p ∈ index.releases.positionsOf release ↔
    ∃ track, catalog.release track = .ok (some release) ∧ p ∈ ps.getD track ∅
  artists : ∀ role artist p, p ∈ (index.artists role).positionsOf artist ↔
    ∃ track links, catalog.links track = .ok links ∧ (artist, role) ∈ links ∧ p ∈ ps.getD track ∅
  faithful : index.Faithful g

lemma mem_getD_iff {ps : TrackPositions} {track : Int} :
    p ∈ ps.getD track ∅ ↔ ∃ row ∈ ps.toList, row.1 = track ∧ p ∈ row.2 := by
  rw [Std.ExtTreeMap.getD_eq_getD_getElem?]
  constructor
  · intro h
    cases hps : ps[track]? with
    | none => simp [hps] at h
    | some set =>
      rw [hps] at h
      exact ⟨(track, set), Std.ExtTreeMap.mem_toList_iff_getElem?_eq_some.2 hps, rfl, h⟩
  · rintro ⟨row, hrow, rfl, h⟩
    rwa [← Std.ExtTreeMap.getD_eq_getD_getElem?, PositionSet.getD_of_mem_toList hrow]

lemma contains_of_holds {ps : TrackPositions} (h : g.Holds ps) :
    ∀ row ∈ ps.toList, ∀ p ∈ row.2, g.Contains p :=
  fun row hrow p hp => h row.1 p (mem_getD_iff.2 ⟨row, hrow, rfl, hp⟩)

/-- **Indices are built alike** in whatever order the tracks and the positions of each come. -/
lemma addTracksInOrder_perm {ps : TrackPositions} (hps : g.Holds ps) {index : ModelIndex}
    (h : (build g.width g.height ps catalog quiet ()).1 = .ok (some index)) {tracks : List Int}
    {order : Int → List Position} (ht : tracks.Perm ps.keys)
    (ho : ∀ track p, p ∈ order track ↔ p ∈ ps.getD track ∅) :
    (addTracksInOrder catalog quiet order tracks (empty g.width g.height) ()).1 =
      .ok (some index) := by
  let row (track : Int) : Int × PositionSet := (track, ps.getD track ∅)
  have hrows : ps.toList = ps.keys.map row := by
    rw [← Std.ExtTreeMap.map_fst_toList_eq_keys, List.map_map]
    refine (List.map_id _).symm.trans (List.map_congr_left fun r hr => ?_)
    exact Prod.ext rfl (PositionSet.getD_of_mem_toList hr).symm
  have hperm : ps.toList.Perm (tracks.map row) := by
    rw [hrows]
    exact ht.symm.map row
  have hgrid : ∀ r ∈ tracks.map row, ∀ p ∈ r.2, g.Contains p := fun r hr =>
    contains_of_holds hps r (hperm.mem_iff.2 hr)
  have horder : ∀ r ∈ tracks.map row, ∀ p, p ∈ order r.1 ↔ p ∈ r.2 := by
    intro r hr p
    obtain ⟨track, -, rfl⟩ := List.mem_map.1 hr
    exact ho track p
  have hfst : (tracks.map row).map (·.1) = tracks := by
    rw [List.map_map]
    exact List.map_id tracks
  have hsame : addTracksInOrder catalog quiet order ((tracks.map row).map (·.1))
      (empty g.width g.height) () = addTracks catalog quiet (tracks.map row)
        (empty g.width g.height) () :=
    addTracksInOrder_eq ⟨fun _ => rfl, fun _ => rfl⟩ hgrid horder (faithful_empty g)
  rw [hfst] at hsame
  rw [hsame]
  exact addTracks_perm hperm (contains_of_holds hps) (faithful_empty g) h

lemma track_eq_ok {track : Int} {t : Track} : catalog.track track = .ok t ↔
    catalog.release track = .ok t.release ∧ catalog.links track = .ok t.links := by
  unfold Catalog.track
  cases catalog.release track with
  | error e => simp
  | ok release =>
    cases catalog.links track with
    | error e => simp
    | ok links =>
      obtain ⟨release', links'⟩ := t
      simp

lemma derived_of_grown {ps : TrackPositions} {index : ModelIndex}
    (hall : ∀ row ∈ ps.toList, ∃ t, catalog.track row.1 = .ok t)
    (h : Grown g (empty g.width g.height) index fun f => ∃ row ∈ ps.toList,
      Brings catalog row.1 f.part f.entity ∧ f.position ∈ row.2) :
    index.Derived g ps catalog := by
  have hhas : ∀ k entity p, p ∈ (index.part k).positionsOf entity ↔
      ∃ track t, catalog.track track = .ok t ∧ (k, entity) ∈ entries track t ∧
        p ∈ ps.getD track ∅ := fun k entity p => by
    have hf := h.has ⟨k, entity, p⟩
    rw [or_iff_right (not_has_empty _ _ _)] at hf
    refine hf.trans ⟨?_, ?_⟩
    · rintro ⟨row, hrow, ⟨t, ht, hmem⟩, hp⟩
      exact ⟨row.1, t, ht, hmem, mem_getD_iff.2 ⟨row, hrow, rfl, hp⟩⟩
    · rintro ⟨track, t, ht, hmem, hp⟩
      obtain ⟨row, hrow, rfl, hrowp⟩ := mem_getD_iff.1 hp
      exact ⟨row, hrow, ⟨t, ht, hmem⟩, hrowp⟩
  -- the catalog has answered for every track that has a position
  have htrack : ∀ track p, p ∈ ps.getD track ∅ → ∃ t, catalog.track track = .ok t :=
    fun track p hp => by
      obtain ⟨row, hrow, rfl, -⟩ := mem_getD_iff.1 hp
      exact hall row hrow
  refine ⟨fun track => PositionSet.ext fun p => ?_, fun release p => ?_, fun role artist p => ?_,
    h.faithful⟩
  · refine (hhas .tracks track p).trans ⟨?_, fun hp => ?_⟩
    · rintro ⟨track', t, -, hmem, hp⟩
      obtain rfl : track = track' := by simpa [entries] using hmem
      exact hp
    · obtain ⟨t, ht⟩ := htrack track p hp
      exact ⟨track, t, ht, by simp [entries], hp⟩
  · refine (hhas .releases release p).trans ⟨?_, ?_⟩
    · rintro ⟨track, t, ht, hmem, hp⟩
      have hr : t.release = some release := by simpa [entries] using hmem
      exact ⟨track, hr ▸ (track_eq_ok.1 ht).1, hp⟩
    · rintro ⟨track, hr, hp⟩
      obtain ⟨t, ht⟩ := htrack track p hp
      have hr' : t.release = some release := Except.ok.inj ((track_eq_ok.1 ht).1.symm.trans hr)
      exact ⟨track, t, ht, by simp [entries, hr'], hp⟩
  · refine (hhas (.artists role) artist p).trans ⟨?_, ?_⟩
    · rintro ⟨track, t, ht, hmem, hp⟩
      have hl : (artist, role) ∈ t.links := by simpa [entries] using hmem
      exact ⟨track, t.links, (track_eq_ok.1 ht).2, hl, hp⟩
    · rintro ⟨track, links, hl, hmem, hp⟩
      obtain ⟨t, ht⟩ := htrack track p hp
      have hl' : t.links = links := Except.ok.inj ((track_eq_ok.1 ht).2.symm.trans hl)
      exact ⟨track, t, ht, by simp [entries, hl', hmem], hp⟩

/-- Building that is not stopped fails with the catalog, or gives the indices that follow. -/
lemma Built.derived {ps : TrackPositions} {r : Except BuildError (Option ModelIndex)}
    (h : Built g catalog ps.toList (empty g.width g.height) r) (hr : r ≠ .ok none) :
    (∃ track ∈ ps, ∃ e, catalog.track track = .error e ∧ r = .error (.catalog e)) ∨
      ∃ index, r = .ok (some index) ∧ index.Derived g ps catalog := by
  cases h with
  | stopped => exact absurd rfl hr
  | failed row e hrow he => exact Or.inl ⟨row.1, PositionSet.mem_of_mem_toList hrow, e, he, rfl⟩
  | grown index hall h => exact Or.inr ⟨index, rfl, derived_of_grown hall h⟩

/-- **The indices of a model are those of its tracks.** Building them is stopped if and only if the
watcher says so when asked before a track; otherwise it fails with the catalog, or gives the indices
that follow from the positions and the catalog. Neither the order in which the positions of a track
come nor how often and in which order its artists are named makes a difference. -/
theorem build_derives (g : Grid) (ps : TrackPositions) (catalog : Catalog) (hps : g.Holds ps)
    (watch : BuildWatch σ) (w : σ) :
    let built := build g.width g.height ps catalog watch w
    let asked := build g.width g.height ps catalog (recorded watch) (w, [])
    asked.1 = built.1 ∧ (built.1 = .ok none ↔ true ∈ asked.2.2) ∧
      (true ∉ asked.2.2 →
        (∃ track ∈ ps, ∃ e, catalog.track track = .error e ∧ built.1 = .error (.catalog e)) ∨
          ∃ index, built.1 = .ok (some index) ∧ index.Derived g ps catalog) ∧
      ∀ (other : Catalog) (order : Int → List Position), Agree other catalog →
        (∀ track p, p ∈ order track ↔ p ∈ ps.getD track ∅) →
          buildInOrder g.width g.height ps other order watch w = built := by
  intro built asked
  have hrows := contains_of_holds hps
  have hm := faithful_empty g
  obtain ⟨hsame, more, hmore, hstop⟩ := addTracks_recorded catalog watch ps.toList
    (empty g.width g.height) w []
  obtain rfl : asked.2.2 = more := hmore
  refine ⟨hsame, hstop,
    fun hcalm => (built_addTracks catalog watch w hrows hm).derived (mt hstop.1 hcalm),
    fun other order hother ho => ?_⟩
  unfold buildInOrder
  rw [← Std.ExtTreeMap.map_fst_toList_eq_keys]
  refine addTracksInOrder_eq hother hrows (fun row hrow p => ?_) hm
  rw [ho, PositionSet.getD_of_mem_toList hrow]

/-- Two tracks of one release, of which the first has an artist in two roles and is in two cells. -/
def duetRecords : Records :=
  .ofRows [(1, ⟨some 7, [(3, .artist), (3, .writer), (3, .artist)]⟩), (2, ⟨some 7, []⟩)]
    none none []

def duetPositions : TrackPositions :=
  ((∅ : TrackPositions).insert 1 (((∅ : PositionSet).insert ⟨1, 0⟩).insert ⟨0, 1⟩)).insert 2
    ((∅ : PositionSet).insert ⟨1, 1⟩)

lemma holds_duetPositions : (⟨2, 2⟩ : Grid).Holds duetPositions := by
  refine ((Grid.holds_empty _).insert 1 fun p hp => ?_).insert 2 fun p hp => ?_ <;>
    simp only [PositionSet.mem_insert, Std.ExtTreeSet.not_mem_empty, or_false] at hp
  · rcases hp with rfl | rfl <;> decide
  · subst hp
    decide

theorem build_duet :
    (⟨2, 2⟩ : Grid).Holds duetPositions ∧
      true ∉ (build 2 2 duetPositions duetRecords.catalog (recorded quiet) ((), [])).2.2 ∧
      ∃ index, (build 2 2 duetPositions duetRecords.catalog quiet ()).1 = .ok (some index) ∧
        index.Derived ⟨2, 2⟩ duetPositions duetRecords.catalog := by
  have h := build_derives ⟨2, 2⟩ duetPositions duetRecords.catalog holds_duetPositions quiet ()
  have hcalm :
      true ∉ (build 2 2 duetPositions duetRecords.catalog (recorded quiet) ((), [])).2.2 := by
    decide +kernel
  refine ⟨holds_duetPositions, hcalm, ?_⟩
  obtain ⟨track, -, e, he, -⟩ | hindex := h.2.2.1 hcalm
  · cases he
  · exact hindex

end ModelIndex

end SoundAtlas
