import SoundAtlas.Proofs.Engine.Cancellation
import SoundAtlas.Proofs.Index.Derived
import SoundAtlas.Proofs.Search.Expansion

/-!
The answers of an engine. However an engine has come to its model, a query is answered with no more
entities than asked for, with one exception: artists fewer than none are never found, as the engine
then looks for something to drop where there is nothing.
-/

namespace SoundAtlas

lemma Published.Complete.faithful {p : Published} {catalog : Catalog} (h : p.Complete catalog)
    (hp : p.model.OnGrid) : p.index.Faithful p.model.network.grid := by
  have hb :=
    ModelIndex.built_addTracks catalog ModelIndex.quiet () (ModelIndex.contains_of_holds hp)
    (ModelIndex.faithful_empty p.model.network.grid)
  have hindex := h.index
  unfold ModelIndex.build at hindex
  rw [hindex] at hb
  cases hb with
  | grown _ _ hg => exact hg.faithful

lemma Search.exists_findSimilar {n : Network} {index : EntityIndex} (hn : n.state = .trained)
    (h : index.OnGrid n.grid) (q : Query) :
    ∃ ids, findSimilar n index q = .ok ids ∧ (ids.length : Int) ≤ max 0 q.maxCount := by
  refine ⟨greedy n index q, findSimilar_greedy hn h q, ?_⟩
  have hle : (greedy n index q).length ≤ q.maxCount.toNat := List.length_take_le _ _
  omega

namespace Engine

/-! ### What is answered -/

section Answers

variable {e : Engine} {p : Published} {catalog : Catalog}

lemma searchIndex_greedy (e : Engine) {index : EntityIndex}
    (hn : p.model.network.state = .trained) (h : index.OnGrid p.model.network.grid)
    (ids : List Int) (maxCount : Int) (accept : Int → Bool) :
    e.searchIndex p index ids maxCount accept =
      .ok (Search.greedy p.model.network index ⟨ids, maxCount, accept, e.maxDistance p⟩) := by
  rw [searchIndex, Search.findSimilar_greedy hn h]
  rfl

lemma exists_searchIndex (e : Engine) {index : EntityIndex}
    (hn : p.model.network.state = .trained) (h : index.OnGrid p.model.network.grid)
    (ids : List Int) (maxCount : Int) (accept : Int → Bool) :
    ∃ found, e.searchIndex p index ids maxCount accept = .ok found ∧
      (found.length : Int) ≤ max 0 maxCount := by
  obtain ⟨found, hf, hle⟩ := Search.exists_findSimilar hn h
    { ids, maxCount, accept, maxDistance := e.maxDistance p }
  exact ⟨found, by rw [searchIndex, hf]; rfl, hle⟩

/-- Artists are searched in all roles; if none are asked for, none come to those found before. -/
lemma exists_artistUnion (e : Engine) (catalog : Catalog) (hn : p.model.network.state = .trained)
    (h : p.index.Faithful p.model.network.grid) (artist maxCount : Int) (roles : List LinkType)
    (found : List Int) :
    ∃ ids, e.artistUnion catalog p artist maxCount roles found = .ok ids ∧
      (maxCount ≤ 0 → ids = found) := by
  induction roles generalizing found with
  | nil => exact ⟨found, rfl, fun _ => rfl⟩
  | cons role roles ih =>
    obtain ⟨more, hmore, hle⟩ := exists_searchIndex e hn (h (.artists role)).toOnGrid [artist]
      maxCount catalog.hasArtist
    obtain ⟨ids, hids, hsame⟩ := ih (mergeFirst found more)
    refine ⟨ids, ?_, fun hmax => ?_⟩
    · rw [artistUnion]
      change (e.searchIndex p (p.index.part (.artists role)) [artist] maxCount
        catalog.hasArtist >>= _) = _
      rw [hmore]
      exact hids
    · obtain rfl : more = [] := List.eq_nil_of_length_eq_zero (by omega)
      exact hsame hmax

/-- **Dropping ends**, with no more than asked for, unless that is less than none. -/
lemma exists_trim {maxCount : Int} (h : 0 ≤ maxCount) (xs : List Int) (g : Random.Twister) :
    ∃ ids, (trim maxCount xs g).1 = .ok ids ∧ (ids.length : Int) ≤ maxCount := by
  induction xs, g using trim.induct maxCount with
  | case1 xs g hle => exact ⟨xs, by rw [trim, if_pos hle], hle⟩
  | case2 xs g hlt hempty => omega
  | case3 xs g hlt hne drawn ih =>
    obtain ⟨ids, hids, hle⟩ := ih
    refine ⟨ids, ?_, hle⟩
    rw [trim, if_neg hlt, dif_neg hne]
    exact hids

lemma trim_nil_of_neg {maxCount : Int} (h : maxCount < 0) (g : Random.Twister) :
    trim maxCount [] g = (.error .nothingToDrop, g) := by
  rw [trim, if_neg (by simpa using h), dif_pos List.length_nil]

def SimilarQuery.maxCount : SimilarQuery → Int
  | .tracks _ maxCount | .trackList _ maxCount | .releases _ maxCount | .artists _ _ maxCount =>
    maxCount

/-- A query that is answered as the model of the engine would have it. -/
def Answered (catalog : Catalog) (e : Engine) (q : SimilarQuery) : Prop :=
  ∃ ids, (e.answer catalog q).1 = .ok ids ∧ (ids.length : Int) ≤ max 0 q.maxCount

/-- An engine with a model is asked for fewer artists than none. -/
def LessThanNone (e : Engine) (q : SimilarQuery) : Prop :=
  e.isLoaded = true ∧ ∃ artist roles maxCount, q = .artists artist roles maxCount ∧ maxCount < 0

lemma LessThanNone.neg {q : SimilarQuery} (h : LessThanNone e q) : q.maxCount < 0 := by
  obtain ⟨-, _, _, _, rfl, hneg⟩ := h
  exact hneg

lemma answered_of_none (catalog : Catalog) (he : e.published = none) (q : SimilarQuery) :
    Answered catalog e q := by
  refine ⟨[], ?_, by simp⟩
  cases q with
  | tracks ids maxCount => simp [answer, similarTracks, he]
  | trackList id maxCount =>
    simp only [answer, similarToList, similarTracks, he]
    split <;> rfl
  | releases id maxCount => simp [answer, similarReleases, he]
  | artists id roles maxCount => simp [answer, similarArtists, he]

lemma answered_tracks (catalog : Catalog) (he : e.published = some p)
    (hn : p.model.network.state = .trained) (h : p.index.Faithful p.model.network.grid)
    (ids : List Int) (maxCount : Int) :
    ∃ found, e.similarTracks catalog ids maxCount = .ok found ∧
      (found.length : Int) ≤ max 0 maxCount := by
  unfold similarTracks
  rw [he]
  exact exists_searchIndex e hn (h .tracks).toOnGrid ids maxCount catalog.hasTrack

/-- **Queries to a model.** All are answered but those for fewer artists than none. -/
lemma answered_of_some (catalog : Catalog) (he : e.published = some p)
    (hn : p.model.network.state = .trained) (h : p.index.Faithful p.model.network.grid)
    (q : SimilarQuery) :
    (¬ LessThanNone e q → Answered catalog e q) ∧
      (LessThanNone e q → (e.answer catalog q).1 = .error .nothingToDrop) := by
  have hloaded : e.isLoaded = true := by simp [isLoaded, he]
  cases q with
  | tracks ids maxCount =>
    refine ⟨fun _ => answered_tracks catalog he hn h ids maxCount, ?_⟩
    rintro ⟨-, _, _, _, hq, -⟩
    cases hq
  | trackList id maxCount =>
    refine ⟨fun _ => ?_, ?_⟩
    · simp only [Answered, answer, similarToList]
      split
      · exact ⟨[], rfl, by simp⟩
      · exact ⟨[], rfl, by simp⟩
      · exact answered_tracks catalog he hn h _ maxCount
    · rintro ⟨-, _, _, _, hq, -⟩
      cases hq
  | releases id maxCount =>
    refine ⟨fun _ => ?_, ?_⟩
    · simp only [Answered, answer, similarReleases, he]
      exact exists_searchIndex e hn (h .releases).toOnGrid [id] maxCount catalog.hasRelease
    · rintro ⟨-, _, _, _, hq, -⟩
      cases hq
  | artists id roles maxCount =>
    obtain ⟨found, hfound, hnone⟩ :=
      exists_artistUnion e catalog hn h id maxCount (inOrder roles) []
    have hanswer : (e.answer catalog (.artists id roles maxCount)).1 =
        (trim maxCount found e.evictions).1 := by
      simp only [answer, similarArtists, he, hfound]
    refine ⟨fun hless => ?_, ?_⟩
    · have hmax : 0 ≤ maxCount := by
        by_contra hneg
        exact hless ⟨hloaded, id, roles, maxCount, rfl, not_le.1 hneg⟩
      obtain ⟨ids, hids, hle⟩ := exists_trim hmax found e.evictions
      exact ⟨ids, hanswer.trans hids, hle.trans (le_max_right _ _)⟩
    · rintro ⟨-, _, _, _, hq, hneg⟩
      cases hq
      rw [hanswer, hnone hneg.le, trim_nil_of_neg hneg]

end Answers

/-! ### Engines in use -/

/-- The engines there are: one is made, and then used in any way. -/
inductive Reachable : Engine → Prop where
  | made {settings : Settings} {registry : Registry} {defaults : FeatureSettings} {freshSeed : Nat}
    {e : Engine} (h : make settings registry defaults freshSeed = .ok e) : Reachable e
  | called {e : Engine} (env : Surroundings) (call : Call) (d : Disk) (h : Reachable e) :
    Reachable (call.run env (Session.start e d)).2.engine
  | asked {e : Engine} (catalog : Catalog) (q : SimilarQuery) (h : Reachable e) :
    Reachable (e.answer catalog q).2
  | cancelled {e : Engine} (h : Reachable e) : Reachable e.cancel
  | configured {e : Engine} (settings : Settings) (h : Reachable e) : Reachable { e with settings }
  /-- Training draws on the generator while the listener makes its queries. -/
  | drawn {e : Engine} (generator : Random.Pcg) (h : Reachable e) : Reachable { e with generator }

/-- **What an engine has published is complete.** -/
lemma Reachable.complete {e : Engine} (h : Reachable e) :
    ∀ p, e.published = some p → ∃ catalog, p.Complete catalog := by
  induction h with
  | made h =>
    intro p hp
    unfold make at h
    dsimp only at h
    split at h
    · cases h
    · cases h
      cases hp
  | @called e env call d h ih =>
    have hend := run_end env call e d
    generalize call.run env (Session.start e d) = ended at hend
    cases hend with
    | kept r s listed hr hu =>
      rw [hu.published]
      exact ih
    | adopted m s hm hrel => exact fun p hp => ⟨_, (hrel.of_published hp).2⟩
    | trained m d' s hm hrel => exact fun p hp => ⟨_, (hrel.of_published hp).2⟩
    | late m d' r s hm hw hrel => exact fun p hp => ⟨_, (hrel.of_published hp).2⟩
  | @asked e catalog q h ih =>
    obtain ⟨g, hg⟩ := answer_eq catalog e q
    rw [hg]
    exact ih
  | cancelled h ih => exact ih
  | configured settings h ih => exact ih
  | drawn generator h ih => exact ih

/-- Queries to any of these engines, if the tracks of its model lie on the grid. -/
lemma Reachable.answered {e : Engine} (he : Reachable e)
    (hp : ∀ p, e.published = some p → p.model.OnGrid) (catalog : Catalog) (q : SimilarQuery) :
    (¬ LessThanNone e q → Answered catalog e q) ∧
      (LessThanNone e q → (e.answer catalog q).1 = .error .nothingToDrop) := by
  cases hpub : e.published with
  | none =>
    refine ⟨fun _ => answered_of_none catalog hpub q, ?_⟩
    rintro ⟨hloaded, -⟩
    simp [isLoaded, hpub] at hloaded
  | some p =>
    obtain ⟨built, hc⟩ := he.complete p hpub
    exact answered_of_some catalog hpub hc.trained (hc.faithful (hp p hpub)) q

/-- **Queries are answered, with no more entities than asked for**, whatever an engine has been
through, as long as the tracks of its model lie on the grid: all but those to a model for fewer
artists than none. They fail, as there is nothing to drop. -/
theorem answered_iff {e : Engine} (he : Reachable e)
    (hp : ∀ p, e.published = some p → p.model.OnGrid) (catalog : Catalog) (q : SimilarQuery) :
    (Answered catalog e q ↔ ¬ LessThanNone e q) ∧
      (LessThanNone e q → (e.answer catalog q).1 = .error .nothingToDrop) := by
  obtain ⟨hok, hfails⟩ := he.answered hp catalog q
  refine ⟨⟨?_, hok⟩, hfails⟩
  rintro ⟨ids, hids, -⟩ hless
  rw [hfails hless] at hids
  cases hids

/-! ### Engines that have been given a model -/

lemma reachable_given (env : Surroundings) (m : Model) :
    Reachable (Call.run env (.cached m) (Session.start bareEngine Disk.empty)).2.engine := by
  have hmade : make (.standard ⟨"", []⟩) [] .standard 0 = .ok bareEngine := rfl
  exact (Reachable.made hmade).called env (.cached m) Disk.empty

lemma onGrid_given (env : Surroundings) {m : Model} (hm : m.OnGrid) (p : Published)
    (hp : (Call.run env (.cached m) (Session.start bareEngine Disk.empty)).2.engine.published =
      some p) : p.model.OnGrid := by
  have hend : CallEnd env _ bareEngine Disk.empty (some m) _ :=
    run_end env (.cached m) bareEngine Disk.empty
  obtain ⟨-, listed, hu⟩ | ⟨-, hrel⟩ := hend.of_given
  · rw [hu.published] at hp
    cases hp
  · rw [Model.OnGrid, (hrel.of_published hp).1]
    exact hm

def duetModel : Model where
  network := Search.square
  positions := ModelIndex.duetPositions
  trained := Search.trained_square

/-- Nobody interferes with a load of tracks that are one release. -/
def duetSurroundings : Surroundings :=
  { bareSurroundings with
    listed := ModelIndex.duetRecords.catalog
    catalog := ModelIndex.duetRecords.catalog }

def duetEngine : Engine :=
  (Call.run duetSurroundings (.cached duetModel) (Session.start bareEngine Disk.empty)).2.engine

lemma reachable_duetEngine : Reachable duetEngine :=
  reachable_given duetSurroundings duetModel

lemma onGrid_duetEngine : ∀ p, duetEngine.published = some p → p.model.OnGrid :=
  onGrid_given duetSurroundings ModelIndex.holds_duetPositions

lemma isLoaded_duetEngine : duetEngine.isLoaded = true := by
  decide +kernel

theorem answered_duet :
    Reachable duetEngine ∧ (∀ p, duetEngine.published = some p → p.model.OnGrid) ∧
      Answered duetSurroundings.catalog duetEngine (.artists 3 [.artist, .writer] 0) := by
  refine ⟨reachable_duetEngine, onGrid_duetEngine, ?_⟩
  refine (answered_iff reachable_duetEngine onGrid_duetEngine _ _).1.2 ?_
  rintro ⟨-, _, _, _, hq, hneg⟩
  cases hq
  exact absurd hneg (by decide)

/-- A query to this engine for fewer artists than none fails. -/
theorem not_answered_duet :
    Reachable duetEngine ∧ (∀ p, duetEngine.published = some p → p.model.OnGrid) ∧
      (duetEngine.answer duetSurroundings.catalog (.artists 3 [.artist] (-1))).1 =
        .error .nothingToDrop := by
  refine ⟨reachable_duetEngine, onGrid_duetEngine, ?_⟩
  exact (reachable_duetEngine.answered onGrid_duetEngine _ _).2
    ⟨isLoaded_duetEngine, 3, [.artist], -1, rfl, by decide⟩

end Engine

end SoundAtlas
