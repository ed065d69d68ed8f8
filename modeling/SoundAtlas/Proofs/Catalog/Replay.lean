import Mathlib
import SoundAtlas.Catalog.Records
import SoundAtlas.Proofs.Chains

/-!
What a catalog holds is the replay of its history: the document that it was read from, and the
changes since. A track is there by its last row or its last addition, unless it has been removed
after that. A release or an artist is there from the start, or by a track that was added with it,
until it is removed itself; to remove or to replace a track does not concern it.
-/

namespace SoundAtlas

/-! ### Replay -/

/-- What some events begin and others end holds after a run of them: it held before and none has
ended it, or one has begun it and none has ended it since. -/
def Persists {ε : Type} (before : Prop) (begins ends : ε → Prop) (es : List ε) : Prop :=
  (before ∧ ∀ e ∈ es, ¬ ends e) ∨
    ∃ earlier e later, es = earlier ++ e :: later ∧ begins e ∧ ∀ e' ∈ later, ¬ ends e'

section Persists

variable {ε σ : Type} {before : Prop} {begins ends : ε → Prop}

lemma persists_nil : Persists before begins ends [] ↔ before := by
  simp [Persists]

lemma persists_concat {es : List ε} {e : ε} : Persists before begins ends (es ++ [e]) ↔
    begins e ∨ Persists before begins ends es ∧ ¬ ends e := by
  constructor
  · rintro (⟨hb, hall⟩ | ⟨earlier, x, later, heq, hx, hlater⟩)
    · rw [List.forall_mem_append, List.forall_mem_singleton] at hall
      exact .inr ⟨.inl ⟨hb, hall.1⟩, hall.2⟩
    · rcases List.eq_nil_or_concat' later with rfl | ⟨later, y, rfl⟩
      · obtain ⟨rfl, hlast⟩ := List.append_inj' heq rfl
        obtain ⟨rfl, -⟩ := List.cons.inj hlast
        exact .inl hx
      · rw [List.forall_mem_append, List.forall_mem_singleton] at hlater
        rw [← List.cons_append, ← List.append_assoc] at heq
        obtain ⟨rfl, hlast⟩ := List.append_inj' heq rfl
        obtain ⟨rfl, -⟩ := List.cons.inj hlast
        exact .inr ⟨.inr ⟨earlier, x, later, rfl, hx, hlater.1⟩, hlater.2⟩
  · rintro (h | ⟨⟨hb, hall⟩ | ⟨earlier, x, later, rfl, hx, hlater⟩, he⟩)
    · exact .inr ⟨es, e, [], rfl, h, nofun⟩
    · exact .inl ⟨hb, List.forall_mem_append.2 ⟨hall, List.forall_mem_singleton.2 he⟩⟩
    · exact .inr ⟨earlier, x, later ++ [e], by simp, hx,
        List.forall_mem_append.2 ⟨hlater, List.forall_mem_singleton.2 he⟩⟩

/-- **What every event begins, ends or leaves as it is** persists accordingly over a run of them. -/
lemma holds_foldl_iff (holds : σ → Prop) {step : σ → ε → σ}
    (hstep : ∀ s e, holds (step s e) ↔ begins e ∨ holds s ∧ ¬ ends e) (s : σ) (es : List ε) :
    holds (es.foldl step s) ↔ Persists (holds s) begins ends es := by
  induction es using List.reverseRecOn with
  | nil => exact persists_nil.symm
  | append_singleton es e ih =>
    rw [List.foldl_append, List.foldl_cons, List.foldl_nil, hstep, ih, persists_concat]

end Persists

/-- The last of some entries of a name. -/
def IsLast {α : Type} (entries : List (Int × α)) (name : Int) (a : α) : Prop :=
  ∃ earlier later, entries = earlier ++ (name, a) :: later ∧ ∀ entry ∈ later, entry.1 ≠ name

lemma getElem?_ofList_iff {α : Type} {entries : List (Int × α)} {name : Int} {a : α} :
    (Std.ExtTreeMap.ofList entries)[name]? = some a ↔ IsLast entries name a := by
  have hstep : ∀ (m : Std.ExtTreeMap Int α) (entry : Int × α),
      (m.insert entry.1 entry.2)[name]? = some a ↔
        entry = (name, a) ∨ m[name]? = some a ∧ ¬ entry.1 = name := by
    rintro m ⟨k, b⟩
    rw [Std.ExtTreeMap.getElem?_insert]
    by_cases hk : k = name
    · subst hk
      simp
    · simp [hk]
  have hrun := holds_foldl_iff (fun m : Std.ExtTreeMap Int α => m[name]? = some a) hstep ∅ entries
  rw [Std.ExtTreeMap.ofList_eq_insertMany_empty, Std.ExtTreeMap.insertMany_list_eq_foldl, hrun]
  simp [Persists, IsLast]

/-! ### Documents -/

namespace Records

def WritesLink (v : Json) (link : ArtistLink) : Prop :=
  ∃ ms id, v = .obj ms ∧ Json.find? (.chars "id") ms = some id ∧ id.toInt = .ok link.1 ∧
    LinkType.ofJson ((Json.find? (.chars "link_type") ms).getD (.string "artist")) = .ok link.2

/-- What a value writes, or none if there is no value, or null. -/
def WritesOption {α : Type} (writes : Json → α → Prop) : Option Json → Option α → Prop
  | some .null, a | none, a => a = none
  | some v, a => ∃ b, writes v b ∧ a = some b

def WritesList {α : Type} (writes : Json → α → Prop) (v : Json) (as : List α) : Prop :=
  ∃ items, v.elements = .ok items ∧ List.Forall₂ writes items as

def WritesInt (v : Json) (n : Int) : Prop :=
  v.toInt = .ok n

def WritesTrack (v : Json) (row : Int × Track) : Prop :=
  ∃ ms id, v = .obj ms ∧ Json.find? (.chars "id") ms = some id ∧ WritesInt id row.1 ∧
    WritesOption WritesInt (Json.find? (.chars "release") ms) row.2.release ∧
    WritesList WritesLink ((Json.find? (.chars "artists") ms).getD (.arr [])) row.2.links

def WritesTrackList (m : Json.Text × Json) (list : Int × List Int) : Prop :=
  WritesInt (.str m.1) list.1 ∧ WritesList WritesInt m.2 list.2

/-- What a document says of a catalog: the rows of its tracks, the releases and the artists unless
they are left out, and the track lists. -/
structure Payload where
  rows : List (Int × Track)
  releases : Option (List Int)
  artists : Option (List Int)
  lists : List (Int × List Int)

/-- A document writes this. -/
structure Payload.IsIn (p : Payload) (ms : List (Json.Text × Json)) : Prop where
  rows : WritesList WritesTrack ((Json.find? (.chars "tracks") ms).getD (.arr [])) p.rows
  releases : WritesOption (WritesList WritesInt) (Json.find? (.chars "releases") ms) p.releases
  artists : WritesOption (WritesList WritesInt) (Json.find? (.chars "artists") ms) p.artists
  lists : ∃ lists, (Json.find? (.chars "track_lists") ms).getD (.obj []) = .obj lists ∧
    List.Forall₂ WritesTrackList lists p.lists

def Payload.records (p : Payload) : Records :=
  ofRows p.rows p.releases p.artists p.lists

lemma read_eq_ok {α : Type} {x : Except Json.ReadError α} {a : α} : read x = .ok a ↔ x = .ok a :=
  mapError_eq_ok

lemma readInts_eq_ok {v : Json} {ns : List Int} :
    readInts v = .ok ns ↔ WritesList WritesInt v ns := by
  simp only [readInts, bind_eq_ok, read_eq_ok, mapM_eq_ok_iff_forall₂, WritesList]
  rfl

lemma member_eq_ok {v x : Json} {key : String} : v.member key = .ok x ↔
    ∃ ms, v = .obj ms ∧ Json.find? (.chars key) ms = some x := by
  unfold Json.member
  split
  · rename_i ms
    split <;> simp_all
  · rename_i hv
    simpa using fun ms h => absurd h (hv ms)

lemma lookup_eq_ok {v : Json} {key : String} {x : Option Json} : v.lookup key = .ok x ↔
    ∃ ms, v = .obj ms ∧ Json.find? (.chars key) ms = x := by
  unfold Json.lookup
  split
  · simp
  · rename_i hv
    simpa using fun ms h => absurd h (hv ms)

lemma readLink_eq_ok {v : Json} {link : ArtistLink} :
    readLink v = .ok link ↔ WritesLink v link := by
  obtain ⟨artist, role⟩ := link
  simp only [readLink, bind_eq_ok, read_eq_ok, member_eq_ok, lookup_eq_ok, mapError_eq_ok,
    WritesLink,
    pure, Except.pure, Except.ok.injEq, Prod.mk.injEq]
  constructor
  · rintro ⟨id, ⟨ms, rfl, hid⟩, n, hn, -, ⟨_, h, rfl⟩, role, hrole, rfl, rfl⟩
    obtain rfl := Json.obj.inj h
    exact ⟨ms, id, rfl, hid, hn, hrole⟩
  · rintro ⟨ms, id, rfl, hid, hn, hrole⟩
    exact ⟨id, ⟨ms, rfl, hid⟩, artist, hn, _, ⟨ms, rfl, rfl⟩, role, hrole, rfl, rfl⟩

lemma withRelease_eq_ok {x : Option Json} {n track : Int} {ls links : List ArtistLink}
    {release : Option Int} :
    (match (motive := Option Json → Except Error (Int × Track)) x with
      | none => .ok (n, ⟨none, ls⟩)
      | some .null => .ok (n, ⟨none, ls⟩)
      | some r => read r.toInt >>= fun r => .ok (n, ⟨some r, ls⟩)) = .ok (track, ⟨release, links⟩) ↔
    n = track ∧ ls = links ∧ WritesOption WritesInt x release := by
  have hread (v : Json) : (read v.toInt >>= fun r =>
        (.ok (n, ⟨some r, ls⟩) : Except Error (Int × Track))) = .ok (track, ⟨release, links⟩) ↔
      n = track ∧ ls = links ∧ ∃ b, v.toInt = .ok b ∧ release = some b := by
    simp only [bind_eq_ok, read_eq_ok, Except.ok.injEq, Prod.mk.injEq, Track.mk.injEq]
    constructor
    · rintro ⟨b, hb, rfl, rfl, rfl⟩
      exact ⟨rfl, rfl, b, hb, rfl⟩
    · rintro ⟨rfl, rfl, b, hb, rfl⟩
      exact ⟨b, hb, rfl, rfl, rfl⟩
  rcases x with _ | _ | _ | _ | _ | _ | _ | _
  case none | some.null => simp [WritesOption, eq_comm, and_comm]
  all_goals exact hread _

lemma readRow_eq_ok {v : Json} {row : Int × Track} : readRow v = .ok row ↔ WritesTrack v row := by
  obtain ⟨track, release, links⟩ := row
  simp only [readRow, bind_eq_ok, read_eq_ok, member_eq_ok, lookup_eq_ok,
    mapM_eq_ok_iff_forall₂, readLink_eq_ok, WritesTrack]
  constructor
  · rintro ⟨-, ⟨ms, rfl, rfl⟩, items, hitems, ls, hlinks, -, ⟨_, h₁, rfl⟩, id,
      ⟨_, h₂, hid⟩, n, hn, h⟩
    obtain rfl := Json.obj.inj h₁
    obtain rfl := Json.obj.inj h₂
    obtain ⟨rfl, rfl, hrelease⟩ := withRelease_eq_ok.1 h
    exact ⟨ms, id, rfl, hid, hn, hrelease, items, hitems, hlinks⟩
  · rintro ⟨ms, id, rfl, hid, hn, hrelease, items, hitems, hlinks⟩
    exact ⟨_, ⟨ms, rfl, rfl⟩, items, hitems, links, hlinks, _, ⟨ms, rfl, rfl⟩, id, ⟨ms, rfl, hid⟩,
      track, hn, withRelease_eq_ok.2 ⟨rfl, rfl, hrelease⟩⟩

lemma readOptionalInts_eq_ok {x : Option Json} {ns : Option (List Int)} :
    readOptionalInts x = .ok ns ↔ WritesOption (WritesList WritesInt) x ns := by
  have hread (v : Json) : (readInts v).map some = .ok ns ↔
      ∃ b, WritesList WritesInt v b ∧ ns = some b := by
    simp only [← readInts_eq_ok]
    cases readInts v <;> simp [Except.map, eq_comm]
  rcases x with _ | _ | _ | _ | _ | _ | _ | _ <;>
    simp [WritesOption, readOptionalInts, hread, eq_comm]

lemma readList_eq_ok {m : Json.Text × Json} {list : Int × List Int} :
    readList m = .ok list ↔ WritesTrackList m list := by
  obtain ⟨name, tracks⟩ := list
  simp only [readList, bind_eq_ok, read_eq_ok, readInts_eq_ok, pure, Except.pure, Except.ok.injEq,
    Prod.mk.injEq, WritesTrackList, WritesInt]
  constructor
  · rintro ⟨n, hn, ts, hts, rfl, rfl⟩
    exact ⟨hn, hts⟩
  · rintro ⟨hn, hts⟩
    exact ⟨name, hn, tracks, hts, rfl, rfl⟩

lemma readLists_eq_ok {x : Option Json} {lists : List (Int × List Int)} :
    readLists x = .ok lists ↔ ∃ ms, x.getD (.obj []) = .obj ms ∧
      List.Forall₂ WritesTrackList ms lists := by
  unfold readLists
  split
  · simp [eq_comm]
  · simp [mapM_eq_ok_iff_forall₂, readList_eq_ok]
  · rename_i hv
    simpa using fun ms h => absurd h (hv ms)

/-- **The records that a document holds** are those of what it writes. -/
lemma ofJson_eq_ok {v : Json} {r : Records} : ofJson v = .ok r ↔
    ∃ (ms : List (Json.Text × Json)) (p : Payload), v = .obj ms ∧ p.IsIn ms ∧
      r = p.records := by
  simp only [ofJson, bind_eq_ok, read_eq_ok, lookup_eq_ok, mapM_eq_ok_iff_forall₂, readRow_eq_ok,
    readOptionalInts_eq_ok, readLists_eq_ok, pure, Except.pure, Except.ok.injEq]
  constructor
  · rintro ⟨-, ⟨ms, rfl, rfl⟩, items, hitems, rows, hrows, -, ⟨_, h₁, rfl⟩, -,
      ⟨_, h₂, rfl⟩, releases,
      hreleases, artists, hartists, -, ⟨_, h₃, rfl⟩, lists, hlists, rfl⟩
    obtain rfl := Json.obj.inj h₁
    obtain rfl := Json.obj.inj h₂
    obtain rfl := Json.obj.inj h₃
    exact ⟨ms, ⟨rows, releases, artists, lists⟩, rfl, ⟨⟨items, hitems, hrows⟩, hreleases, hartists,
      hlists⟩, rfl⟩
  · rintro ⟨ms, ⟨rows, releases, artists, lists⟩, rfl, ⟨⟨items, hitems, hrows⟩, hreleases, hartists,
      hlists⟩, rfl⟩
    exact ⟨_, ⟨ms, rfl, rfl⟩, items, hitems, rows, hrows, _, ⟨ms, rfl, rfl⟩, _, ⟨ms, rfl, rfl⟩,
      releases, hreleases, artists, hartists, _, ⟨ms, rfl, rfl⟩, lists, hlists, rfl⟩

/-! ### Changes -/

inductive Change where
  | addTrack (track : Int) (t : Track)
  | removeTrack (track : Int)
  | removeRelease (release : Int)
  | removeArtist (artist : Int)

def change (r : Records) : Change → Records
  | .addTrack track t => r.addTrack track t
  | .removeTrack track => r.removeTrack track
  | .removeRelease release => r.removeRelease release
  | .removeArtist artist => r.removeArtist artist

/-- The records after changes, one after the other. -/
def replay (r : Records) (changes : List Change) : Records :=
  changes.foldl change r

variable {r : Records} {changes : List Change} {track release artist list : Int} {t : Track}

def Change.Adds (track : Int) (c : Change) : Prop :=
  ∃ t, c = .addTrack track t

def Change.NamesRelease (release : Int) (c : Change) : Prop :=
  ∃ track t, c = .addTrack track t ∧ t.release = some release

def Change.NamesArtist (artist : Int) (c : Change) : Prop :=
  ∃ track t role, c = .addTrack track t ∧ (artist, role) ∈ t.links

lemma getElem?_change (r : Records) (c : Change) : (r.change c).tracks[track]? = some t ↔
    c = .addTrack track t ∨ r.tracks[track]? = some t ∧
      ¬ (c.Adds track ∨ c = .removeTrack track) := by
  cases c with
  | addTrack other u =>
    simp only [change, addTrack, Std.ExtTreeMap.getElem?_insert, Change.Adds]
    by_cases h : other = track <;> simp [h]
  | removeTrack other =>
    simp only [change, removeTrack, Std.ExtTreeMap.getElem?_erase, Change.Adds]
    by_cases h : other = track <;> simp [h]
  | removeRelease _ => simp [change, removeRelease, Change.Adds]
  | removeArtist _ => simp [change, removeArtist, Change.Adds]

lemma hasTrack_change (r : Records) (c : Change) : (r.change c).hasTrack track = true ↔
    c.Adds track ∨ r.hasTrack track = true ∧ ¬ c = .removeTrack track := by
  cases c with
  | addTrack other u =>
    simp [change, addTrack, hasTrack, Std.ExtTreeMap.contains_insert, Change.Adds]
  | removeTrack other =>
    simp [change, removeTrack, hasTrack, Std.ExtTreeMap.contains_erase, Change.Adds, and_comm]
  | removeRelease _ => simp [change, removeRelease, hasTrack, Change.Adds]
  | removeArtist _ => simp [change, removeArtist, hasTrack, Change.Adds]

lemma hasRelease_change (r : Records) (c : Change) : (r.change c).hasRelease release = true ↔
    c.NamesRelease release ∨ r.hasRelease release = true ∧ ¬ c = .removeRelease release := by
  cases c with
  | addTrack _ u =>
    rcases hu : u.release with _ | n <;>
      simp [change, addTrack, hasRelease, hu, Std.ExtTreeSet.contains_insert, Change.NamesRelease]
  | removeRelease other =>
    simp [change, removeRelease, hasRelease, Std.ExtTreeSet.contains_erase, Change.NamesRelease,
      and_comm]
  | removeTrack _ => simp [change, removeTrack, hasRelease, Change.NamesRelease]
  | removeArtist _ => simp [change, removeArtist, hasRelease, Change.NamesRelease]

lemma hasArtist_change (r : Records) (c : Change) : (r.change c).hasArtist artist = true ↔
    c.NamesArtist artist ∨ r.hasArtist artist = true ∧ ¬ c = .removeArtist artist := by
  cases c with
  | addTrack _ u =>
    simp [change, addTrack, hasArtist, Std.ExtTreeSet.contains_insertMany_list, Change.NamesArtist,
      or_comm]
  | removeArtist other =>
    simp [change, removeArtist, hasArtist, Std.ExtTreeSet.contains_erase,
      Change.NamesArtist, and_comm]
  | removeTrack _ => simp [change, removeTrack, hasArtist, Change.NamesArtist]
  | removeRelease _ => simp [change, removeRelease, hasArtist, Change.NamesArtist]

lemma lists_replay : (r.replay changes).lists = r.lists := by
  induction changes generalizing r with
  | nil => rfl
  | cons c changes ih =>
    rw [replay, List.foldl_cons, ← replay, ih]
    cases c <;> rfl

/-! ### The start -/

/-- A release or an artist is known from the start: it is listed, or there is no list and the last
row of some track refers to it. -/
def Known (listed : Option (List Int)) (rows : List (Int × Track)) (refers : Track → Prop)
    (id : Int) : Prop :=
  match listed with
  | some ids => id ∈ ids
  | none => ∃ track t, IsLast rows track t ∧ refers t

lemma exists_isLast {α : Type} {entries : List (Int × α)} {name : Int} :
    (∃ a, IsLast entries name a) ↔ ∃ a, (name, a) ∈ entries := by
  simp only [← getElem?_ofList_iff, ← Option.isSome_iff_exists]
  rw [Std.ExtTreeMap.isSome_getElem?_eq_contains, Std.ExtTreeMap.contains_ofList]
  simp

lemma hasTrack_iff : r.hasTrack track = true ↔ ∃ t, r.tracks[track]? = some t := by
  rw [hasTrack, ← Std.ExtTreeMap.isSome_getElem?_eq_contains, Option.isSome_iff_exists]

variable {p : Payload}

lemma hasTrack_ofRows : p.records.hasTrack track = true ↔
    ∃ t, (track, t) ∈ p.rows := by
  rw [hasTrack_iff, ← exists_isLast]
  exact exists_congr fun t => getElem?_ofList_iff

lemma contains_iff_known {listed : Option (List Int)} {derived : List Int} {refers : Track → Prop}
    {id : Int} (h : id ∈ derived ↔ ∃ track t, IsLast p.rows track t ∧ refers t) :
    (Std.ExtTreeSet.ofList (listed.getD derived)).contains id = true ↔
      Known listed p.rows refers id := by
  rw [Std.ExtTreeSet.contains_ofList, List.contains_iff_mem]
  cases listed with
  | some ids => rfl
  | none => exact h

lemma hasRelease_ofRows : p.records.hasRelease release = true ↔
    Known p.releases p.rows (fun t => t.release = some release) release := by
  refine contains_iff_known ?_
  simp [← getElem?_ofList_iff, Std.ExtTreeMap.mem_toList_iff_getElem?_eq_some]

lemma hasArtist_ofRows : p.records.hasArtist artist = true ↔
    Known p.artists p.rows (fun t => ∃ role, (artist, role) ∈ t.links) artist := by
  refine contains_iff_known ?_
  simp [← getElem?_ofList_iff, Std.ExtTreeMap.mem_toList_iff_getElem?_eq_some]

/-! ### The whole history -/

/-- This is recorded of a track by its last row or addition, and the track has not been removed
since. -/
def InForce (p : Payload) (changes : List Change) (track : Int) (t : Track) : Prop :=
  Persists (IsLast p.rows track t) (· = .addTrack track t)
    (fun c => c.Adds track ∨ c = .removeTrack track) changes

/-- Records are the replay of a payload and the changes since. -/
structure Replays (p : Payload) (changes : List Change) (r : Records) : Prop where
  hasTrack : ∀ track, r.hasTrack track = true ↔
    Persists (∃ t, (track, t) ∈ p.rows) (·.Adds track) (· = .removeTrack track) changes
  inForce : ∀ track, r.hasTrack track = true → ∃ t, InForce p changes track t ∧
    r.release? track = t.release ∧ r.links track = t.links
  missing : ∀ track, r.hasTrack track = false → r.release? track = none ∧ r.links track = []
  hasRelease : ∀ release, r.hasRelease release = true ↔
    Persists (Known p.releases p.rows (fun t => t.release = some release) release)
      (·.NamesRelease release) (· = .removeRelease release) changes
  hasArtist : ∀ artist, r.hasArtist artist = true ↔
    Persists (Known p.artists p.rows (fun t => ∃ role, (artist, role) ∈ t.links) artist)
      (·.NamesArtist artist) (· = .removeArtist artist) changes
  ascending : r.trackIds.Pairwise (· < ·)
  mem_trackIds : ∀ track, track ∈ r.trackIds ↔ r.hasTrack track = true
  lists : ∀ list tracks, r.list? list = some tracks ↔ IsLast p.lists list tracks

lemma inForce_iff : (p.records.replay changes).tracks[track]? =
    some t ↔ InForce p changes track t := by
  rw [InForce, ← getElem?_ofList_iff]
  exact holds_foldl_iff (fun r : Records => r.tracks[track]? = some t) getElem?_change _ changes

/-- **Records change as their history says**, whatever the order of the changes. -/
lemma replays_replay (p : Payload) (changes : List Change) :
    Replays p changes (p.records.replay changes) where
  hasTrack track := by
    rw [← hasTrack_ofRows]
    exact holds_foldl_iff (fun r : Records => r.hasTrack track = true) hasTrack_change _ changes
  inForce track h := by
    obtain ⟨t, ht⟩ := hasTrack_iff.1 h
    exact ⟨t, inForce_iff.1 ht, by simp [release?, ht], by simp [links, ht]⟩
  missing track h := by
    have hnone : (p.records.replay changes).tracks[track]? = none := by
      rw [Option.eq_none_iff_forall_ne_some]
      exact fun t ht => by simp [hasTrack_iff.2 ⟨t, ht⟩] at h
    exact ⟨by simp [release?, hnone], by simp [links, hnone]⟩
  hasRelease release := by
    rw [← hasRelease_ofRows]
    exact holds_foldl_iff (fun r : Records => r.hasRelease release = true)
      hasRelease_change _ changes
  hasArtist artist := by
    rw [← hasArtist_ofRows]
    exact holds_foldl_iff (fun r : Records => r.hasArtist artist = true) hasArtist_change _ changes
  ascending := Std.ExtTreeMap.ordered_keys.imp fun h => Int.compare_eq_lt.1 h
  mem_trackIds track := by
    rw [trackIds, Std.ExtTreeMap.mem_keys, hasTrack, Std.ExtTreeMap.contains_iff_mem]
  lists list tracks := by
    rw [list?, lists_replay]
    exact getElem?_ofList_iff

/-- **A catalog is the replay of its history.** From every document that is accepted, and after any
changes: a track is there if it was in a row or has been added and has not been removed since, and
what is told of it is its last row or addition; a release or an artist is there if it was known from
the start, or a track has been added with it, and it has not been removed since; the tracks are
listed in ascending order; and the track lists stay what they were. -/
theorem replay_of_document {v : Json} {r : Records} (h : ofJson v = .ok r) :
    ∃ ms p, v = .obj ms ∧ Payload.IsIn p ms ∧ ∀ changes, Replays p changes (r.replay changes) ∧
      ∀ list, (r.replay changes).list? list = r.list? list := by
  obtain ⟨ms, p, rfl, hp, rfl⟩ := ofJson_eq_ok.1 h
  refine ⟨ms, p, rfl, hp, fun changes => ⟨replays_replay p changes, fun list => ?_⟩⟩
  rw [list?, lists_replay, list?]

/-- Two rows of one track, of which the first has another release and an artist. -/
def reissueDocument : Json :=
  .object [
    ("tracks", .arr [
      .object [("id", .int 1), ("release", .int 10),
        ("artists", .arr [.object [("id", .int 5), ("link_type", .string "composer")]])],
      .object [("id", .int 1), ("release", .int 11)]]),
    ("track_lists", .object [("3", .arr [.int 1])])]

/-- The track comes out again, and the release of the document and the track go. -/
def reissueChanges : List Change :=
  [.addTrack 1 ⟨some 12, []⟩, .removeRelease 11, .removeTrack 1]

theorem replay_of_reissue :
    ∃ r, ofJson reissueDocument = .ok r ∧
      (∃ ms p, reissueDocument = .obj ms ∧ Payload.IsIn p ms ∧
        Replays p reissueChanges (r.replay reissueChanges)) ∧
      r.hasRelease 10 = false ∧ r.hasArtist 5 = false ∧
      (r.replay reissueChanges).trackIds = [] ∧
      (r.replay reissueChanges).hasRelease 11 = false ∧
      (r.replay reissueChanges).hasRelease 12 = true := by
  have h : ofJson reissueDocument =
    .ok (ofRows [(1, ⟨some 10, [(5, .composer)]⟩), (1, ⟨some 11, []⟩)]
    none none [(3, [1])]) := by cbv
  obtain ⟨ms, p, hms, hp, hreplays⟩ := replay_of_document h
  refine ⟨_, h, ⟨ms, p, hms, hp, (hreplays reissueChanges).1⟩, ?_, ?_, ?_, ?_, ?_⟩
    <;> decide +kernel

end Records

end SoundAtlas
