import SoundAtlas.Proofs.Engine.Genuine
import SoundAtlas.Proofs.Search.Limits

/-!
Queries for artists. Each role is searched by itself and gives no more than asked for; the results
are merged in the order of the roles, and entries at random places are dropped until there are no
more than asked for. Since each role gives the first of all that it could give, the merged list is
long enough: there remain as many as asked for, or all that any of the roles could give.
-/

namespace SoundAtlas.Engine

/-! ### Dropping entries by their places -/

/-- What is left when entries are dropped one after the other, each by its place at that time. -/
def dropAt (xs : List Int) (places : List Nat) : List Int :=
  places.foldl List.eraseIdx xs

/-- Places at which entries can be dropped one after the other from a list of `n`. -/
def Droppable : Nat → List Nat → Prop
  | _, [] => True
  | n, place :: places => place < n ∧ Droppable (n - 1) places

/-- The places that a generator draws to drop so many entries, one after the other, from a list of
`n`. -/
def drawPlaces : (drops n : Nat) → Random.Twister → List Nat × Random.Twister
  | 0, _, g => ([], g)
  | drops + 1, n, g =>
    let drawn := g.below n
    let rest := drawPlaces drops (n - 1) drawn.2
    (drawn.1 :: rest.1, rest.2)

section Dropping

variable {xs : List Int} {places : List Nat}

lemma sublist_dropAt (xs : List Int) (places : List Nat) : (dropAt xs places).Sublist xs := by
  induction places generalizing xs with
  | nil => exact List.Sublist.refl xs
  | cons place places ih => exact (ih (xs.eraseIdx place)).trans (List.eraseIdx_sublist xs place)

lemma length_dropAt (h : Droppable xs.length places) :
    (dropAt xs places).length + places.length = xs.length := by
  induction places generalizing xs with
  | nil => rfl
  | cons place places ih =>
    obtain ⟨hplace, hplaces⟩ := h
    have hlen : (xs.eraseIdx place).length = xs.length - 1 := List.length_eraseIdx_of_lt hplace
    have hrest : (dropAt (xs.eraseIdx place) places).length + places.length =
        (xs.eraseIdx place).length := ih (by rwa [hlen])
    rw [List.length_cons]
    change (dropAt (xs.eraseIdx place) places).length + _ = _
    omega

lemma length_drawPlaces (drops n : Nat) (g : Random.Twister) :
    (drawPlaces drops n g).1.length = drops := by
  induction drops generalizing n g with
  | zero => rfl
  | succ drops ih => rw [drawPlaces, List.length_cons, ih]

lemma droppable_drawPlaces {drops n : Nat} (h : drops ≤ n) (g : Random.Twister) :
    Droppable n (drawPlaces drops n g).1 := by
  induction drops generalizing n g with
  | zero => trivial
  | succ drops ih => exact ⟨Random.Twister.below_lt (by omega) g, ih (by omega) _⟩

/-- **Dropping at random** is dropping at the places that are drawn, as many as there are too many
entries. -/
lemma trim_eq {maxCount : Int} (hmax : 0 ≤ maxCount) (xs : List Int) (g : Random.Twister) :
    trim maxCount xs g =
      (.ok (dropAt xs (drawPlaces (xs.length - maxCount.toNat) xs.length g).1),
        (drawPlaces (xs.length - maxCount.toNat) xs.length g).2) := by
  induction xs, g using trim.induct maxCount with
  | case1 xs g hle =>
    have hnone : xs.length - maxCount.toNat = 0 := by omega
    rw [trim, if_pos hle, hnone]
    rfl
  | case2 xs g hlt hempty => omega
  | case3 xs g hlt hne drawn ih =>
    have hdrawn : drawn.1 < xs.length := Random.Twister.below_lt (Nat.pos_of_ne_zero hne) g
    have hlen : (xs.eraseIdx drawn.1).length = xs.length - 1 := List.length_eraseIdx_of_lt hdrawn
    obtain ⟨drops, hdrops⟩ : ∃ drops, xs.length - maxCount.toNat = drops + 1 :=
      ⟨xs.length - maxCount.toNat - 1, by omega⟩
    have hrest : xs.length - 1 - maxCount.toNat = drops := by omega
    rw [trim, if_neg hlt, dif_neg hne]
    rw [hlen, hrest] at ih
    rw [hdrops]
    exact ih

end Dropping

/-! ### Merging lists -/

lemma eraseDups_append_singleton (xs : List Int) (y : Int) :
    (xs ++ [y]).eraseDups = if y ∈ xs then xs.eraseDups else xs.eraseDups ++ [y] := by
  have hone : ([y] : List Int).eraseDups = [y] := rfl
  rw [List.eraseDups_append]
  split <;> simp_all [List.removeAll]

lemma mergeFirst_eraseDups (xs ys : List Int) :
    mergeFirst xs.eraseDups ys = (xs ++ ys).eraseDups := by
  unfold mergeFirst
  induction ys generalizing xs with
  | nil => rw [List.append_nil]; rfl
  | cons y ys ih =>
    rw [List.append_cons, ← ih, List.foldl_cons, eraseDups_append_singleton]
    congr 1
    simp

lemma length_eraseDups (xs : List Int) : xs.eraseDups.length = xs.toFinset.card := by
  have hsame : xs.eraseDups.toFinset = xs.toFinset := by
    ext id
    simp
  rw [← hsame, List.toFinset_card_of_nodup (Search.nodup_eraseDups xs)]

/-- **Lists may be cut before they are joined**: if there are too few entries in the end, no list
was cut. -/
lemma min_card_cut (roles : List LinkType) {every : LinkType → List Int} (m : Nat)
    (h : ∀ role, (every role).Nodup) :
    min m (roles.flatMap fun role => (every role).take m).toFinset.card =
      min m (roles.flatMap every).toFinset.card := by
  have hsub : (roles.flatMap fun role => (every role).take m).toFinset ⊆
      (roles.flatMap every).toFinset := by
    intro id hid
    simp only [List.mem_toFinset, List.mem_flatMap] at hid ⊢
    obtain ⟨role, hrole, hid⟩ := hid
    exact ⟨role, hrole, List.mem_of_mem_take hid⟩
  have hle := Finset.card_le_card hsub
  by_cases hcut : ∃ role ∈ roles, m ≤ (every role).length
  · -- one list alone has enough entries
    obtain ⟨role, hrole, hlong⟩ := hcut
    have hone : ((every role).take m).toFinset ⊆
        (roles.flatMap fun role => (every role).take m).toFinset := by
      intro id hid
      simp only [List.mem_toFinset, List.mem_flatMap] at hid ⊢
      exact ⟨role, hrole, hid⟩
    have hcard : ((every role).take m).toFinset.card = m := by
      rw [List.toFinset_card_of_nodup ((h role).sublist (List.take_sublist _ _)),
        List.length_take_of_le hlong]
    have hmany := Finset.card_le_card hone
    omega
  · have hwhole : (roles.flatMap fun role => (every role).take m) = roles.flatMap every := by
      refine List.flatMap_congr fun role hrole => List.take_of_length_le ?_
      by_contra hlong
      exact hcut ⟨role, hrole, by omega⟩
    rw [hwhole]

/-! ### Searching the roles -/

section Roles

variable {e : Engine} {p : Published} {catalog : Catalog} {artist maxCount : Int}
  {first every : LinkType → List Int}

/-- **A search gives the first of all that could be found**, each entity once, and none of those
asked for. -/
lemma exists_found (e : Engine) {index : EntityIndex} (hn : p.model.network.state = .trained)
    (h : index.Faithful p.model.network.grid) (ids : List Int) (accept : Int → Bool) :
    ∃ every : List Int, every.Nodup ∧ (∀ id ∈ every, id ∉ ids) ∧ every.length ≤ index.count ∧
      ∀ count, e.searchIndex p index ids count accept = .ok (every.take count.toNat) := by
  let all : Search.Query := .within ids index.count (e.maxDistance p)
  have hnodup : (Search.greedy p.model.network index all).Nodup := Search.nodup_harvest _ _
  have hlen : (Search.greedy p.model.network index all).length ≤ index.count :=
    List.length_take_le _ _
  refine ⟨(Search.greedy p.model.network index all).filter accept, hnodup.filter _,
    fun id hid => ?_, (List.length_filter_le _ _).trans hlen, fun count => ?_⟩
  · exact (Search.of_mem_harvest (List.mem_of_mem_filter hid)).2.1
  · rw [searchIndex_greedy e hn h.toOnGrid, ← Search.greedy_filter h (le_refl _) count accept]

/-- What the searches of the roles find: `first` if they are asked for `maxCount` artists, `every`
if they are asked for no fewer than there are. -/
structure Finds (e : Engine) (catalog : Catalog) (p : Published) (artist maxCount : Int)
    (first every : LinkType → List Int) : Prop where
  first : ∀ role, e.searchIndex p (p.index.artists role) [artist] maxCount catalog.hasArtist =
    .ok (first role)
  every : ∀ role count, ((p.index.artists role).count : Int) ≤ count →
    e.searchIndex p (p.index.artists role) [artist] count catalog.hasArtist = .ok (every role)

lemma exists_finds (e : Engine) (catalog : Catalog) (hn : p.model.network.state = .trained)
    (h : p.index.Faithful p.model.network.grid) (artist maxCount : Int) :
    ∃ every, Finds e catalog p artist maxCount
      (fun role => (every role).take maxCount.toNat) every ∧
      ∀ role, (every role).Nodup ∧ artist ∉ every role := by
  have hrole (role : LinkType) := exists_found e hn (h (.artists role)) [artist] catalog.hasArtist
  choose every hnodup hother hlen hsearch using hrole
  refine ⟨every, ⟨fun role => hsearch role maxCount, fun role count hcount => ?_⟩, fun role =>
    ⟨hnodup role, fun hmem => hother role artist hmem (List.mem_singleton_self artist)⟩⟩
  have hall : (every role).length ≤ count.toNat := by
    have hle : (every role).length ≤ (p.index.artists role).count := hlen role
    omega
  exact (hsearch role count).trans (by rw [List.take_of_length_le hall])

/-- **The roles one after the other**: what each finds is joined, without repetitions. -/
lemma artistUnion_eq (h : Finds e catalog p artist maxCount first every) (roles : List LinkType)
    (found : List Int) :
    e.artistUnion catalog p artist maxCount roles found.eraseDups =
      .ok (found ++ roles.flatMap first).eraseDups := by
  induction roles generalizing found with
  | nil => simp [artistUnion]
  | cons role roles ih =>
    rw [artistUnion, h.first role]
    change e.artistUnion catalog p artist maxCount roles
      (mergeFirst found.eraseDups (first role)) = _
    rw [mergeFirst_eraseDups, ih, List.flatMap_cons, List.append_assoc]

lemma artistUnion_greedy (e : Engine) (catalog : Catalog) (hn : p.model.network.state = .trained)
    (h : p.index.Faithful p.model.network.grid) (artist maxCount : Int) (roles : List LinkType)
    (found : List Int) :
    e.artistUnion catalog p artist maxCount roles found =
      .ok (roles.foldl (fun found role => mergeFirst found (Search.greedy p.model.network
        (p.index.artists role) ⟨[artist], maxCount, catalog.hasArtist, e.maxDistance p⟩))
          found) := by
  induction roles generalizing found with
  | nil => rfl
  | cons role roles ih =>
    have hindex : (p.index.artists role).OnGrid p.model.network.grid := (h (.artists role)).toOnGrid
    rw [artistUnion, searchIndex_greedy e hn hindex]
    exact ih _

end Roles

/-! ### The order of the roles -/

structure Ascends (roles order : List LinkType) : Prop where
  ascending : order.Pairwise fun r s => r.ordinal < s.ordinal
  mem : ∀ role, role ∈ order ↔ role ∈ roles

lemma ascends_inOrder (roles : List LinkType) : Ascends roles (inOrder roles) := by
  have hall : LinkType.all.Pairwise fun r s => r.ordinal < s.ordinal := by decide
  have hmem (role : LinkType) : role ∈ LinkType.all := by cases role <;> decide
  refine ⟨hall.sublist List.filter_sublist, fun role => ?_⟩
  simp [inOrder, hmem]

lemma inOrder_congr {roles roles' : List LinkType} (h : ∀ role, role ∈ roles' ↔ role ∈ roles) :
    inOrder roles' = inOrder roles := by
  unfold inOrder
  refine List.filter_congr fun role _ => ?_
  rw [Bool.eq_iff_iff, List.contains_iff_mem, List.contains_iff_mem, h role]

/-! ### The answer -/

/-- A selection of what has been merged: as many as asked for or all that any of the roles could
give, each once, none of them the artist asked for, in the order of the merged list; and the whole
of it if it is no longer than asked for. -/
structure Selects (artist : Int) (most : Nat) (union : Finset Int) (merged ids : List Int) :
    Prop where
  length : ids.length = min most union.card
  once : ids.Nodup
  genuine : ∀ id ∈ ids, id ∈ union ∧ id ≠ artist
  sublist : ids.Sublist merged
  whole : merged.length ≤ most → ids = merged

variable {e : Engine} {p : Published} {artist : Int}

/-- **However entries are dropped**, what is left is such a selection. -/
lemma selects_dropAt {every : LinkType → List Int} {roles order : List LinkType} {m : Nat}
    (hroles : Ascends roles order) (h : ∀ role, (every role).Nodup ∧ artist ∉ every role)
    {merged : List Int}
    (hmerged : merged = (order.flatMap fun role => (every role).take m).eraseDups)
    {places : List Nat} (hplaces : Droppable merged.length places)
    (hcount : places.length = merged.length - m) :
    Selects artist m (roles.flatMap every).toFinset merged (dropAt merged places) := by
  have hunion : (order.flatMap every).toFinset = (roles.flatMap every).toFinset := by
    ext id
    simp [hroles.mem]
  have hcard : min m merged.length = min m (roles.flatMap every).toFinset.card := by
    rw [hmerged, length_eraseDups, min_card_cut order m fun role => (h role).1, hunion]
  have hlen := length_dropAt hplaces
  have hsub := sublist_dropAt merged places
  refine ⟨by omega, ?_, fun id hid => ?_, hsub, fun hle => hsub.eq_of_length (by omega)⟩
  · rw [hmerged] at hsub ⊢
    exact (Search.nodup_eraseDups _).sublist hsub
  · have hmem := hsub.subset hid
    rw [hmerged, List.mem_eraseDups, List.mem_flatMap] at hmem
    obtain ⟨role, hrole, hmem⟩ := hmem
    have hevery := List.mem_of_mem_take hmem
    refine ⟨List.mem_toFinset.2 (List.mem_flatMap.2 ⟨role, (hroles.mem role).1 hrole, hevery⟩), ?_⟩
    rintro rfl
    exact (h role).2 hevery

/-- **A query for artists.** The results of the roles in ascending order, each asked for as many as
are wanted, are joined without repetitions, and entries are dropped until there are no more than
wanted. Whatever is drawn, there remain as many as wanted, or all that the roles could give without
a limit; they are among those, each once, without the artist asked for, and in their order. The
engine does that with the draws of its generator, and neither the order nor the repetition of the
roles makes a difference to the answer or to the draws. -/
theorem similarArtists_selects (he : Reachable e) (hp : e.published = some p)
    (hgrid : p.model.OnGrid) (catalog : Catalog) (artist : Int) (roles : List LinkType)
    {maxCount : Int} (hmax : 0 ≤ maxCount) :
    ∃ order first every, Ascends roles order ∧ Finds e catalog p artist maxCount first every ∧
      let merged := (order.flatMap first).eraseDups
      let drops := merged.length - maxCount.toNat
      (∀ places, Droppable merged.length places → places.length = drops →
        Selects artist maxCount.toNat (roles.flatMap every).toFinset merged
          (dropAt merged places)) ∧
      let drawn := drawPlaces drops merged.length e.evictions
      Droppable merged.length drawn.1 ∧ drawn.1.length = drops ∧
        ∀ roles', (∀ role, role ∈ roles' ↔ role ∈ roles) →
          e.similarArtists catalog artist roles' maxCount =
            (.ok (dropAt merged drawn.1), { e with evictions := drawn.2 }) := by
  obtain ⟨built, hc⟩ := he.complete p hp
  have hfaithful := hc.faithful hgrid
  obtain ⟨every, hfinds, hevery⟩ := exists_finds e catalog hc.trained hfaithful artist maxCount
  have hroles := ascends_inOrder roles
  refine ⟨inOrder roles, fun role => (every role).take maxCount.toNat, every, hroles, hfinds,
    fun places hplaces hcount => selects_dropAt hroles hevery rfl hplaces hcount,
    droppable_drawPlaces (by omega) _, length_drawPlaces _ _ _, fun roles' hsame => ?_⟩
  have hunion := artistUnion_eq hfinds (inOrder roles') []
  rw [inOrder_congr hsame, List.nil_append] at hunion
  have hempty : ([] : List Int).eraseDups = [] := rfl
  rw [hempty] at hunion
  unfold similarArtists
  rw [hp, inOrder_congr hsame]
  dsimp only
  rw [hunion]
  dsimp only
  rw [trim_eq hmax]

/-- Two tracks, one of an artist in two roles, the other of two artists in one of these each. -/
def trioRecords : Records :=
  .ofRows [(1, ⟨none, [(3, .writer), (3, .artist)]⟩), (2, ⟨none, [(4, .artist), (5, .writer)]⟩)]
    none none []

/-- Nobody interferes with a load of these tracks. -/
def trioSurroundings : Surroundings :=
  { bareSurroundings with catalog := trioRecords.catalog }

/-- A new engine that has been given a model of them. -/
def trioEngine : Engine :=
  (Call.run trioSurroundings (.cached duetModel) (Session.start bareEngine Disk.empty)).2.engine

lemma artistUnion_trio : ∃ p, trioEngine.published = some p ∧
    trioEngine.artistUnion trioRecords.catalog p 3 1 [.artist, .writer] [] = .ok [4, 5] := by
  have hloaded : trioEngine.isLoaded = true := by decide +kernel
  obtain ⟨p, hp⟩ := Option.isSome_iff_exists.1 hloaded
  obtain ⟨_, hc⟩ := (reachable_given trioSurroundings duetModel).complete p hp
  have hgrid := onGrid_given trioSurroundings (m := duetModel) ModelIndex.holds_duetPositions p hp
  have hmerged : (trioEngine.published.map fun p => ([.artist, .writer] : List LinkType).foldl
      (fun found role => mergeFirst found (Search.greedy p.model.network (p.index.artists role)
        ⟨[3], 1, trioRecords.catalog.hasArtist, trioEngine.maxDistance p⟩)) []) = some [4, 5] := by
    decide +kernel
  rw [hp, Option.map_some, Option.some.injEq] at hmerged
  exact ⟨p, hp, by rw [artistUnion_greedy _ _ hc.trained (hc.faithful hgrid), hmerged]⟩

theorem similarArtists_selects_trio :
    ∃ p, Reachable trioEngine ∧ trioEngine.published = some p ∧ p.model.OnGrid ∧ (0 : Int) ≤ 1 ∧
      ∃ (every : LinkType → List Int) (merged ids : List Int),
        Selects 3 1 (List.flatMap every [.writer, .artist, .writer]).toFinset merged ids ∧
        (trioEngine.similarArtists trioRecords.catalog 3 [.writer, .artist, .writer] 1).1
          = .ok ids ∧
        trioEngine.similarArtists trioRecords.catalog 3 [.artist, .writer] 1 =
          trioEngine.similarArtists trioRecords.catalog 3 [.writer, .artist, .writer] 1 := by
  have hreachable : Reachable trioEngine := reachable_given trioSurroundings duetModel
  have hloaded : trioEngine.isLoaded = true := by decide +kernel
  obtain ⟨p, hp⟩ := Option.isSome_iff_exists.1 hloaded
  have hgrid : p.model.OnGrid :=
    onGrid_given trioSurroundings (m := duetModel) ModelIndex.holds_duetPositions p hp
  obtain ⟨order, first, every, -, -, hselects, hdroppable, hdrops, hanswer⟩ :=
    similarArtists_selects hreachable hp hgrid trioRecords.catalog 3 [.writer, .artist, .writer]
      zero_le_one
  have hsame := hanswer _ fun role => Iff.rfl
  refine ⟨p, hreachable, hp, hgrid, zero_le_one, every, _, _, hselects _ hdroppable hdrops,
    congrArg Prod.fst hsame, ?_⟩
  rw [hsame]
  exact hanswer _ fun role => by cases role <;> decide

end SoundAtlas.Engine
