import SoundAtlas.Proofs.Cache.Escape
import SoundAtlas.Proofs.Engine.Answers
import SoundAtlas.Proofs.Search.Findings

/-!
What answers hold. Whatever a query finds exists in the catalog when the query is made, is not what
the query is about, and is in a cell of the index that is searched; and no entity comes twice, also
where several indices are searched and where random ones of the answers are dropped.
-/

namespace SoundAtlas.Engine

variable {e : Engine} {p : Published} {catalog : Catalog} {q : SimilarQuery} {ids found : List Int}

def SimilarQuery.parts : SimilarQuery → List ModelIndex.Part
  | .tracks _ _ | .trackList _ _ => [.tracks]
  | .releases _ _ => [.releases]
  | .artists _ roles _ => roles.map .artists

def SimilarQuery.entities (catalog : Catalog) : SimilarQuery → List Int
  | .tracks ids _ => ids
  | .trackList list _ => (catalog.list? list).getD []
  | .releases id _ | .artists id _ _ => [id]

/-- Whether the catalog has an entity of the kind that a query looks for. -/
def SimilarQuery.exists? (catalog : Catalog) : SimilarQuery → Int → Bool
  | .tracks _ _ | .trackList _ _ => catalog.hasTrack
  | .releases _ _ => catalog.hasRelease
  | .artists _ _ _ => catalog.hasArtist

/-- An answer that is neither stale nor repeats itself: each entity comes once, the catalog has it,
the query is not about it, and it is in a cell of an index that the query searches. -/
structure Genuine (catalog : Catalog) (e : Engine) (q : SimilarQuery) (ids : List Int) : Prop where
  once : ids.Nodup
  exist : ∀ id ∈ ids, q.exists? catalog id = true
  others : ∀ id ∈ ids, id ∉ q.entities catalog
  placed : ∀ id ∈ ids, ∃ p, e.published = some p ∧
    ∃ k ∈ q.parts, (p.index.part k).Occupies p.model.network.grid id

lemma genuine_nil (catalog : Catalog) (e : Engine) (q : SimilarQuery) : Genuine catalog e q [] :=
  ⟨List.nodup_nil, nofun, nofun, nofun⟩

/-! ### One index -/

lemma of_searchIndex (hn : p.model.network.state = .trained)
    {k : ModelIndex.Part} (h : p.index.Faithful p.model.network.grid) {maxCount : Int}
    {accept : Int → Bool} (hf : e.searchIndex p (p.index.part k) ids maxCount accept = .ok found) :
    found.Nodup ∧ ∀ id ∈ found, accept id = true ∧ id ∉ ids ∧
      (p.index.part k).Occupies p.model.network.grid id := by
  unfold searchIndex at hf
  cases hs : Search.findSimilar p.model.network (p.index.part k)
      { ids, maxCount, accept, maxDistance := e.maxDistance p } with
  | error err =>
    rw [hs] at hf
    cases hf
  | ok found' =>
    rw [hs] at hf
    obtain rfl : found' = found := Except.ok.inj hf
    exact Search.of_findSimilar hn (h k) hs

lemma genuine_similarTracks (hp : ∀ p, e.published = some p → p.model.network.state = .trained ∧
      p.index.Faithful p.model.network.grid) {maxCount : Int}
    (hf : e.similarTracks catalog ids maxCount = .ok found) (hparts : q.parts = [.tracks])
    (hexists : q.exists? catalog = catalog.hasTrack) (hentities : q.entities catalog = ids) :
    Genuine catalog e q found := by
  unfold similarTracks at hf
  split at hf
  · obtain rfl : [] = found := Except.ok.inj hf
    exact genuine_nil _ _ _
  · rename_i p he
    obtain ⟨hn, h⟩ := hp p he
    obtain ⟨hnodup, hall⟩ := of_searchIndex (k := .tracks) hn h hf
    refine ⟨hnodup, fun id hid => ?_, fun id hid => ?_, fun id hid => ?_⟩
    · rw [hexists]
      exact (hall id hid).1
    · rw [hentities]
      exact (hall id hid).2.1
    · exact ⟨p, he, .tracks, by simp [hparts], (hall id hid).2.2⟩

/-! ### Several indices -/

lemma mem_mergeFirst {xs ys : List Int} {id : Int} :
    id ∈ mergeFirst xs ys ↔ id ∈ xs ∨ id ∈ ys := by
  unfold mergeFirst
  induction ys generalizing xs with
  | nil => simp
  | cons y ys ih =>
    rw [List.foldl_cons, ih, List.mem_cons]
    split
    · rename_i hy
      have hmem : y ∈ xs := List.contains_iff_mem.1 hy
      refine ⟨fun h => h.imp_right Or.inr, ?_⟩
      rintro (h | rfl | h)
      exacts [Or.inl h, Or.inl hmem, Or.inr h]
    · rw [List.mem_append, List.mem_singleton, or_assoc]

lemma nodup_mergeFirst {xs ys : List Int} (h : xs.Nodup) : (mergeFirst xs ys).Nodup := by
  unfold mergeFirst
  induction ys generalizing xs with
  | nil => exact h
  | cons y ys ih =>
    rw [List.foldl_cons]
    refine ih ?_
    split
    · exact h
    · rename_i hy
      exact h.append (List.nodup_singleton y) (by simpa using hy)

lemma of_artistUnion (hn : p.model.network.state = .trained)
    (h : p.index.Faithful p.model.network.grid) {artist maxCount : Int} {roles : List LinkType}
    {P : Int → Prop} (hP : ∀ role ∈ roles, ∀ id, catalog.hasArtist id = true → id ≠ artist →
      (p.index.artists role).Occupies p.model.network.grid id → P id)
    (hnodup : found.Nodup) (hfound : ∀ id ∈ found, P id)
    (hf : e.artistUnion catalog p artist maxCount roles found = .ok ids) :
    ids.Nodup ∧ ∀ id ∈ ids, P id := by
  induction roles generalizing found with
  | nil =>
    obtain rfl : found = ids := Except.ok.inj hf
    exact ⟨hnodup, hfound⟩
  | cons role roles ih =>
    obtain ⟨hrole, hroles⟩ := List.forall_mem_cons.1 hP
    obtain ⟨more, hmore, hrest⟩ := bind_eq_ok.1 hf
    obtain ⟨-, hall⟩ := of_searchIndex (k := .artists role) hn h hmore
    refine ih hroles (nodup_mergeFirst hnodup) (fun id hid => ?_) hrest
    rcases mem_mergeFirst.1 hid with hid | hid
    · exact hfound id hid
    · obtain ⟨haccept, hother, hplaced⟩ := hall id hid
      exact hrole id haccept (by simpa using hother) hplaced

lemma mem_of_mem_inOrder {roles : List LinkType} {role : LinkType} (h : role ∈ inOrder roles) :
    role ∈ roles :=
  List.contains_iff_mem.1 (List.mem_filter.1 h).2

lemma sublist_of_trim {maxCount : Int} {xs : List Int} {g : Random.Twister}
    (h : (trim maxCount xs g).1 = .ok ids) : ids.Sublist xs := by
  induction xs, g using trim.induct maxCount with
  | case1 xs g hle =>
    rw [trim, if_pos hle] at h
    obtain rfl : xs = ids := Except.ok.inj h
    exact List.Sublist.refl _
  | case2 xs g hlt hempty =>
    rw [trim, if_neg hlt, dif_pos hempty] at h
    cases h
  | case3 xs g hlt hne drawn ih =>
    rw [trim, if_neg hlt, dif_neg hne] at h
    exact (ih h).trans (List.eraseIdx_sublist _ _)

/-! ### All queries -/

lemma genuine_similarArtists (hp : ∀ p, e.published = some p → p.model.network.state = .trained ∧
      p.index.Faithful p.model.network.grid) {artist maxCount : Int} {roles : List LinkType}
    (h : (e.similarArtists catalog artist roles maxCount).1 = .ok ids) :
    Genuine catalog e (.artists artist roles maxCount) ids := by
  unfold similarArtists at h
  split at h
  · obtain rfl : [] = ids := Except.ok.inj h
    exact genuine_nil _ _ _
  · rename_i p he
    obtain ⟨hn, hfaithful⟩ := hp p he
    split at h
    · cases h
    · rename_i found hfound
      have hsub := sublist_of_trim h
      obtain ⟨hnodup, hall⟩ := of_artistUnion (P := fun id => catalog.hasArtist id = true ∧
          id ≠ artist ∧ ∃ role ∈ roles, (p.index.artists role).Occupies p.model.network.grid id)
        hn hfaithful (fun role hrole id hexists hother hplaced =>
          ⟨hexists, hother, role, mem_of_mem_inOrder hrole, hplaced⟩) List.nodup_nil nofun hfound
      refine ⟨hnodup.sublist hsub, fun id hid => (hall id (hsub.subset hid)).1, fun id hid => ?_,
        fun id hid => ?_⟩
      · simpa [SimilarQuery.entities] using (hall id (hsub.subset hid)).2.1
      · obtain ⟨-, -, role, hrole, hplaced⟩ := hall id (hsub.subset hid)
        exact ⟨p, he, .artists role, List.mem_map_of_mem hrole, hplaced⟩

/-- **Answers are genuine**, if the indices of what has been published say the same both ways. -/
lemma genuine_of_answer (hp : ∀ p, e.published = some p → p.model.network.state = .trained ∧
      p.index.Faithful p.model.network.grid) (h : (e.answer catalog q).1 = .ok ids) :
    Genuine catalog e q ids := by
  cases q with
  | tracks about maxCount => exact genuine_similarTracks hp h rfl rfl rfl
  | trackList list maxCount =>
    change e.similarToList catalog list maxCount = .ok ids at h
    unfold similarToList at h
    split at h
    · obtain rfl : [] = ids := Except.ok.inj h
      exact genuine_nil _ _ _
    · obtain rfl : [] = ids := Except.ok.inj h
      exact genuine_nil _ _ _
    · rename_i about _ hlist
      exact genuine_similarTracks hp h rfl rfl (by rw [SimilarQuery.entities, hlist]; rfl)
  | releases release maxCount =>
    change e.similarReleases catalog release maxCount = .ok ids at h
    unfold similarReleases at h
    split at h
    · obtain rfl : [] = ids := Except.ok.inj h
      exact genuine_nil _ _ _
    · rename_i p he
      obtain ⟨hn, hfaithful⟩ := hp p he
      obtain ⟨hnodup, hall⟩ := of_searchIndex (k := .releases) hn hfaithful h
      exact ⟨hnodup, fun id hid => (hall id hid).1, fun id hid => (hall id hid).2.1,
        fun id hid => ⟨p, he, .releases, List.mem_singleton_self _, (hall id hid).2.2⟩⟩
  | artists artist roles maxCount => exact genuine_similarArtists hp h

end SoundAtlas.Engine
