import SoundAtlas.Proofs.Engine.Answers
import SoundAtlas.Proofs.Index.Recorded

/-!
Models that are given to an engine. Nobody looks at the positions of their tracks: indices are built
of any that the numbers of some cells can be made of. What has been published can be used if and
only if all these positions lie on the grid.
-/

namespace SoundAtlas

/-- What has been published can be used: all positions in the indices lie on the grid, every cell
holds the entities that are there, and every engine that has published it answers all queries for no
fewer entities than none. -/
structure Published.IsUsable (p : Published) : Prop where
  places : ∀ k entity, ∀ q ∈ (p.index.part k).positionsOf entity, p.model.network.grid.Contains q
  cells : ∀ k q, p.model.network.grid.Contains q →
    ∃ entities, (p.index.part k).entitiesAt? q = some entities ∧
      ∀ entity, entity ∈ entities ↔ q ∈ (p.index.part k).positionsOf entity
  answers : ∀ (e : Engine) (catalog : Catalog) (q : Engine.SimilarQuery), e.published = some p →
    0 ≤ q.maxCount → ∃ ids, (e.answer catalog q).1 = .ok ids

namespace Published

variable {p : Published} {catalog : Catalog}

lemma Complete.isUsable (h : p.Complete catalog) (hp : p.model.OnGrid) : p.IsUsable := by
  have hf := h.faithful hp
  refine ⟨fun k => (hf k).places, fun k => (hf k).cells, fun e catalog q he hq => ?_⟩
  obtain ⟨hok, -⟩ := Engine.answered_of_some catalog he h.trained hf q
  obtain ⟨ids, hids, -⟩ := hok fun hless => not_lt.2 hq hless.neg
  exact ⟨ids, hids⟩

lemma Complete.onGrid_of_places (h : p.Complete catalog)
    (hp : ∀ track, ∀ q ∈ p.index.tracks.positionsOf track, p.model.network.grid.Contains q) :
    p.model.OnGrid :=
  fun track q hq => hp track q (ModelIndex.mem_tracks_of_build h.index hq)

end Published

namespace Engine

lemma exists_adopted {env : Surroundings} {m : Model} {e : Engine} {d : Disk}
    (h : (loadFromCache env m (Session.start e d)).1 = .ok .loadedFromCache) :
    ∃ p, (loadFromCache env m (Session.start e d)).2.engine.published = some p ∧ p.model = m ∧
      p.Complete env.catalog := by
  have hend : CallEnd env _ e d (some m) (loadFromCache env m (Session.start e d)) :=
    run_end env (.cached m) e d
  obtain ⟨hunsettled, -⟩ | ⟨-, hrel⟩ := hend.of_given
  · rw [h] at hunsettled
    exact absurd hunsettled not_unsettled_loadedFromCache
  · exact hrel.published

/-- **A model that has been given to an engine can be used exactly if its tracks lie on its grid.**
Whatever the model, if the engine says that it has been loaded, it has been published, and then all
indices lie on the grid, say the same both ways and lead to answers, or the tracks have positions
outside and are recorded there. -/
theorem adopted_isUsable_iff (env : Surroundings) (m : Model) (e : Engine) (d : Disk)
    (h : (loadFromCache env m (Session.start e d)).1 = .ok .loadedFromCache) :
    ∃ p, (loadFromCache env m (Session.start e d)).2.engine.published = some p ∧ p.model = m ∧
      p.Complete env.catalog ∧ (p.IsUsable ↔ m.OnGrid) := by
  obtain ⟨p, hp, rfl, hcomplete⟩ := exists_adopted h
  exact ⟨p, hp, rfl, hcomplete, fun hu => hcomplete.onGrid_of_places (hu.places .tracks),
    hcomplete.isUsable⟩

theorem adopted_isUsable_iff_duet :
    (loadFromCache duetSurroundings duetModel (Session.start bareEngine Disk.empty)).1 =
        .ok .loadedFromCache ∧
      ∃ p, duetEngine.published = some p ∧ p.model = duetModel ∧ p.IsUsable := by
  have h : (loadFromCache duetSurroundings duetModel (Session.start bareEngine Disk.empty)).1 =
      .ok .loadedFromCache := by
    decide +kernel
  obtain ⟨p, hp, hm, -, hiff⟩ := adopted_isUsable_iff duetSurroundings duetModel bareEngine
    Disk.empty h
  exact ⟨h, p, hp, hm, hiff.2 ModelIndex.holds_duetPositions⟩

def adriftModel : Model where
  network := Search.square
  positions := (∅ : TrackPositions).insert 5 ((∅ : PositionSet).insert ⟨-1, 0⟩)
  trained := Search.trained_square

def adriftEngine : Engine :=
  (loadFromCache duetSurroundings adriftModel (Session.start bareEngine Disk.empty)).2.engine

/-- The engine says that it has been loaded, and fails when asked for tracks similar to this one. -/
theorem adopted_adrift :
    (loadFromCache duetSurroundings adriftModel (Session.start bareEngine Disk.empty)).1 =
        .ok .loadedFromCache ∧
      (adriftEngine.answer duetSurroundings.catalog (.tracks [5] 3)).1 =
        .error (.search (.network (.outside ⟨-1, 0⟩ ⟨2, 2⟩))) ∧
      ∃ p, adriftEngine.published = some p ∧ p.model = adriftModel ∧ ¬ p.IsUsable := by
  have hloaded : (loadFromCache duetSurroundings adriftModel
      (Session.start bareEngine Disk.empty)).1 = .ok .loadedFromCache := by
    decide +kernel
  have hfails : (adriftEngine.answer duetSurroundings.catalog (.tracks [5] 3)).1 =
      .error (.search (.network (.outside ⟨-1, 0⟩ ⟨2, 2⟩))) := by
    decide +kernel
  obtain ⟨p, hp, hm, -⟩ := exists_adopted hloaded
  refine ⟨hloaded, hfails, p, hp, hm, fun hu => ?_⟩
  obtain ⟨ids, hids⟩ :=
    hu.answers adriftEngine duetSurroundings.catalog (.tracks [5] 3) hp (by decide)
  rw [hfails] at hids
  cases hids

end Engine

end SoundAtlas
