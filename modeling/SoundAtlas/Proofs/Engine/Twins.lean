import SoundAtlas.Proofs.Cache.Files
import SoundAtlas.Proofs.Engine.Answers

/-!
Engines that have come to one model in two ways. A model that is read from a cache is the one that
was written, but for what only matters to training; so its indices and its median are the same, in
whatever order tracks, positions and first cells come, and so are the answers.
-/

namespace SoundAtlas

/-! ### Networks that have been restored -/

lemma Network.cellAt_restored (n : Network) (p : Position) : n.restored.cellAt p = n.cellAt p := by
  cases h : n.grid.cell? p with
  | none =>
    have h' : n.restored.grid.cell? p = none := h
    rw [cellAt, cellAt, h, h']
    rfl
  | some c =>
    have h' : n.restored.grid.cell? p = some c := h
    rw [cellAt, cellAt, h, h']
    rfl

lemma Search.seed_restored {n : Network} (hn : n.state = .trained) : seed n.restored = seed n := by
  have htrained : n.restored.requireTrained = n.requireTrained := by
    rw [Network.requireTrained, Network.requireTrained, hn]
    rfl
  funext s p
  unfold seed
  rw [htrained, Network.cellAt_restored]
  cases n.requireTrained with
  | error e => rfl
  | ok u => cases n.cellAt p <;> rfl

lemma Search.findSimilar_restored {n : Network} (hn : n.state = .trained) (index : EntityIndex)
    (q : Query) : findSimilar n.restored index q = findSimilar n index q := by
  unfold findSimilar search searchFrom
  rw [seed_restored hn]
  rfl

section Model

variable {m m' : Model}

lemma Model.grid_of_restored (h : m'.restored = m.restored) : m'.network.grid = m.network.grid :=
  congrArg (fun m => m.network.grid) h

lemma Model.positions_of_restored (h : m'.restored = m.restored) : m'.positions = m.positions :=
  congrArg (·.positions) h

lemma Model.median_of_restored (h : m'.restored = m.restored) :
    m'.network.medianNeighborDistance = m.network.medianNeighborDistance :=
  congrArg (fun m => m.network.medianNeighborDistance) h

end Model

/-- Two that have been published and are the same but for what only matters to training: they have
the same sizes, reference vectors, weights and positions, the same indices and the same median. -/
structure Published.Twin (p p' : Published) : Prop where
  model : p'.model.restored = p.model.restored
  index : p'.index = p.index
  median : p'.median = p.median

namespace Published

variable {p p' : Published} {catalog : Catalog}

lemma Twin.refl (p : Published) : p.Twin p := ⟨rfl, rfl, rfl⟩

lemma Twin.complete (h : p.Twin p') (hp : p.Complete catalog) : p'.Complete catalog := by
  refine ⟨p'.model.trained, ?_, ?_⟩
  · rw [Model.grid_of_restored h.model, Model.positions_of_restored h.model, h.index]
    exact hp.index
  · rw [h.median, Model.median_of_restored h.model]
    exact hp.median

/-- **Of one model there is only one index and one median.** -/
lemma Complete.twin (hp : p.Complete catalog) (hp' : p'.Complete catalog)
    (h : p'.model.restored = p.model.restored) : p.Twin p' := by
  refine ⟨h, ?_, ?_⟩
  · have hindex := hp'.index
    rw [Model.grid_of_restored h, Model.positions_of_restored h, hp.index] at hindex
    simpa using hindex.symm
  · rw [hp'.median, Model.median_of_restored h, hp.median]

lemma Twin.onGrid (h : p.Twin p') (hp : p.model.OnGrid) : p'.model.OnGrid := by
  rw [Model.OnGrid, Model.grid_of_restored h.model, Model.positions_of_restored h.model]
  exact hp

lemma Twin.findSimilar (h : p.Twin p') (index : EntityIndex) (q : Search.Query) :
    Search.findSimilar p'.model.network index q = Search.findSimilar p.model.network index q := by
  rw [← Search.findSimilar_restored p'.model.trained, ← Search.findSimilar_restored p.model.trained]
  exact congrArg (fun m => Search.findSimilar m.network index q) h.model

/-- Neither the order in which tracks and their positions come to the indices, nor that in which a
search goes through its first cells, makes a difference to what has been published. -/
structure Orderless (p : Published) (catalog : Catalog) : Prop where
  index : ∀ (tracks : List Int) (order : Int → List Position), tracks.Perm p.model.positions.keys →
    (∀ track q, q ∈ order track ↔ q ∈ p.model.positions.getD track ∅) →
    (ModelIndex.addTracksInOrder catalog ModelIndex.quiet order tracks
      (.empty p.model.network.grid.width p.model.network.grid.height) ()).1 = .ok (some p.index)
  search : ∀ (k : ModelIndex.Part) (q : Search.Query) (order : List Position), 1 ≤ q.maxCount →
    order.Perm (Search.startPositions (p.index.part k) q.ids).toList →
    (Search.searchFrom p.model.network (p.index.part k) q order).map (·.results) =
      Search.findSimilar p.model.network (p.index.part k) q

lemma Complete.orderless (hp : p.Complete catalog) (hgrid : p.model.OnGrid) :
    p.Orderless catalog where
  index tracks order htracks horder :=
    ModelIndex.addTracksInOrder_perm hgrid (congrArg Prod.fst hp.index) htracks horder
  search k q order hq ho := by
    have hix := (hp.faithful hgrid k).toOnGrid
    rw [Search.searchFrom_eq hp.trained hix q ho, Search.findSimilar_greedy hp.trained hix]

end Published

namespace Engine

/-! ### The same answers -/

section Answers

variable {a b : Engine} {p p' : Published} {catalog : Catalog}

/-- A query of whose answer nothing has to be dropped: no more artists are found than asked for. -/
def Spared (catalog : Catalog) (e : Engine) : SimilarQuery → Prop
  | .artists artist roles maxCount => ∀ p, e.published = some p → ∀ found,
    e.artistUnion catalog p artist maxCount (inOrder roles) [] = .ok found →
      (found.length : Int) ≤ maxCount
  | _ => True

/-- An engine answers all queries as another does, as long as nothing has to be dropped. -/
def AnswersAs (a b : Engine) : Prop :=
  ∀ catalog q, Spared catalog a q → (b.answer catalog q).1 = (a.answer catalog q).1

/-- An engine has the settings of another, and a twin of what that has published. -/
structure Mirrors (p : Published) (a b : Engine) : Prop where
  settings : b.settings = a.settings
  published : ∃ p', b.published = some p' ∧ p.Twin p'

lemma searchIndex_twin (hs : b.settings.factor = a.settings.factor) (h : p.Twin p')
    (index : EntityIndex) (ids : List Int) (maxCount : Int) (accept : Int → Bool) :
    b.searchIndex p' index ids maxCount accept = a.searchIndex p index ids maxCount accept := by
  unfold searchIndex maxDistance
  rw [h.findSimilar, hs, h.median]

lemma artistUnion_twin {catalog' : Catalog} (hs : b.settings.factor = a.settings.factor)
    (hc : catalog'.hasArtist = catalog.hasArtist) (h : p.Twin p') (artist maxCount : Int)
    (roles : List LinkType) (found : List Int) :
    b.artistUnion catalog' p' artist maxCount roles found =
      a.artistUnion catalog p artist maxCount roles found := by
  induction roles generalizing found with
  | nil => rfl
  | cons role roles ih => simp only [artistUnion, searchIndex_twin hs h, h.index, hc, ih]

lemma Mirrors.answersAs (h : Mirrors p a b) (ha : a.published = some p) : AnswersAs a b := by
  obtain ⟨p', hb, htwin⟩ := h.published
  have hs : b.settings.factor = a.settings.factor := congrArg Settings.factor h.settings
  have htracks (catalog : Catalog) (ids : List Int) (maxCount : Int) :
      b.similarTracks catalog ids maxCount = a.similarTracks catalog ids maxCount := by
    simp only [similarTracks, ha, hb, searchIndex_twin hs htwin, htwin.index]
  intro catalog q hspared
  cases q with
  | tracks ids maxCount => exact htracks catalog ids maxCount
  | trackList id maxCount => simp only [answer, similarToList, htracks]
  | releases id maxCount =>
    simp only [answer, similarReleases, ha, hb, searchIndex_twin hs htwin, htwin.index]
  | artists id roles maxCount =>
    simp only [answer, similarArtists, ha, hb, artistUnion_twin hs rfl htwin]
    cases hfound : a.artistUnion catalog p id maxCount (inOrder roles) [] with
    | error err => rfl
    | ok found =>
      have hle := hspared p ha found hfound
      dsimp only
      rw [trim, if_pos hle, trim, if_pos hle]

end Answers

end Engine

end SoundAtlas
