import SoundAtlas.Proofs.Engine.Coherence
import SoundAtlas.Proofs.Engine.Genuine

/-!
An engine and its catalog over their whole history. The engine loads models, is cancelled and is
asked, while tracks, releases and artists come and go. What it has published may be older than the
catalog, but its answers never are.
-/

namespace SoundAtlas.Engine

/-! ### Sound engines -/

/-- What a sound engine has published is complete and lies on its grid. -/
def Sound (e : Engine) : Prop :=
  ∀ p, e.published = some p → p.model.OnGrid ∧ ∃ catalog, p.Complete catalog

section Sound

variable {env : Surroundings} {e : Engine} {d : Disk} {listed : Bool} {s : Session} {m : Model}

lemma sound_of_make {settings : Settings} {registry : Registry} {defaults : FeatureSettings}
    {freshSeed : Nat} (h : make settings registry defaults freshSeed = .ok e) : Sound e := by
  intro p hp
  unfold make at h
  dsimp only at h
  split at h
  · cases h
  · cases h
    cases hp

lemma Underway.sound (h : Underway env e d listed s) (he : Sound e) : Sound s.engine := by
  rw [Sound, h.published]
  exact he

lemma Released.sound (h : Released env e d listed m s) (hm : m.OnGrid) : Sound s.engine := by
  intro p hp
  obtain ⟨rfl, hcomplete⟩ := h.of_published hp
  exact ⟨hm, _, hcomplete⟩

lemma Underway.sound_adopt (h : Underway env e d false s) (he : Sound e) (hm : m.OnGrid) :
    Sound (adopt env m s).2.engine := by
  obtain ⟨-, listed, hu⟩ | ⟨-, hrel⟩ := (adopt_end h m (.cached m)).of_given
  · exact hu.sound he
  · exact hrel.sound hm

/-- **Training** keeps an engine sound: it places all tracks on the grid. -/
lemma Underway.sound_train (h : Underway env e d false s) (he : Sound e) (ts : TrainSettings) :
    Sound (train env ts s).2.engine := by
  have hspec := train_spec h ts
  generalize train env ts s = ended at hspec ⊢
  cases hspec with
  | failed f listed t hu => exact hu.sound he
  | calledOff t hu => exact hu.sound he
  | noData t hu => exact hu.sound he
  | released m t hrel _ hg => exact hrel.sound hg
  | unlogged m t hrel _ hg => exact hrel.sound hg

lemma engine_loadFromTraining (env : Surroundings) (ts : TrainSettings) (s : Session) :
    (loadFromTraining env ts s).2.engine = (train env ts s).2.engine := by
  unfold loadFromTraining
  split <;> rename_i heq <;> rw [heq]

lemma engine_store (env : Surroundings) (c : ModelCache) (m : Model) (s : Session) :
    (store env c m s).2.engine = s.engine := by
  unfold store
  extract_lets written s'
  split
  · rfl
  · split <;> rfl

lemma Underway.sound_loadByTraining (h : Underway env e d false s) (he : Sound e) :
    Sound (loadByTraining env s).2.engine := by
  unfold loadByTraining
  split
  · exact h.sound he
  · rename_i ts _
    have htrain := h.sound_train he ts
    split
    · rename_i heq
      rw [heq] at htrain
      exact htrain
    · rename_i m s' c heq _
      rw [heq] at htrain
      have hstore : Sound (store env c m s').2.engine := by
        rw [engine_store]
        exact htrain
      split <;> rename_i hstored <;> rw [hstored] at hstore <;> exact hstore
    · rename_i heq _
      rw [heq] at htrain
      exact htrain

lemma onGrid_of_read {c : ModelCache} (h : (c.read d).1 = .ok (some m)) : m.OnGrid := by
  obtain ⟨name, -, -, hload⟩ := ModelCache.read_eq_some.1 h
  exact Cache.onGrid_of_load hload

/-- **A call keeps an engine sound**, whichever way it comes to a model, if a given one lies on its
grid. -/
lemma Sound.call (he : Sound e) (env : Surroundings) (d : Disk) {call : Call}
    (hm : ∀ m, call = .cached m → m.OnGrid) :
    Sound (call.run env (Session.start e d)).2.engine := by
  have h := underway_start env e d
  cases call with
  | training ts =>
    unfold Call.run
    dsimp only
    rw [engine_loadFromTraining]
    exact h.sound_train he ts
  | cached m => exact h.sound_adopt he (hm m rfl)
  | load force =>
    unfold Call.run Engine.load
    cases env.cache with
    | none => cases force <;> exact h.sound_loadByTraining he
    | some c =>
      cases force with
      | true =>
        have hu := h.onDisk (c.invalidate d).2
        dsimp only [Session.start] at hu ⊢
        split
        · exact hu.sound he
        · exact hu.sound_loadByTraining he
      | false =>
        have hu := h.warn ((c.read d).2.map .cache)
        dsimp only [Session.start] at hu ⊢
        cases hr : (c.read d).1 with
        | error err => exact hu.sound he
        | ok found =>
          cases found with
          | none => exact hu.sound_loadByTraining he
          | some m => exact hu.sound_adopt he (onGrid_of_read hr)

/-- To a query for no fewer entities than none this is the reply: a genuine answer. -/
def Settles (catalog : Catalog) (e : Engine) (q : SimilarQuery)
    (reply : Except QueryError (List Int)) : Prop :=
  0 ≤ q.maxCount → ∃ ids, reply = .ok ids ∧ Genuine catalog e q ids

lemma Sound.settles (he : Sound e) (catalog : Catalog) (q : SimilarQuery) :
    Settles catalog e q (e.answer catalog q).1 := by
  intro hq
  have hp : ∀ p, e.published = some p → p.model.network.state = .trained ∧
      p.index.Faithful p.model.network.grid := fun p hp => by
    obtain ⟨hgrid, _, hcomplete⟩ := he p hp
    exact ⟨hcomplete.trained, hcomplete.faithful hgrid⟩
  have hanswered : Answered catalog e q := by
    cases hpub : e.published with
    | none => exact answered_of_none catalog hpub q
    | some p =>
      obtain ⟨hn, hfaithful⟩ := hp p hpub
      exact (answered_of_some catalog hpub hn hfaithful q).1 fun hless => not_lt.2 hq hless.neg
  obtain ⟨ids, hids, -⟩ := hanswered
  exact ⟨ids, hids, genuine_of_answer hp hids⟩

lemma Sound.similarTracks (he : Sound e) {catalog : Catalog} {ids found : List Int} {maxCount : Int}
    (h : (e.published.map fun p => Search.greedy p.model.network p.index.tracks
      ⟨ids, maxCount, catalog.hasTrack, e.maxDistance p⟩) = some found) :
    (e.answer catalog (.tracks ids maxCount)).1 = .ok found := by
  obtain ⟨p, hp, rfl⟩ := Option.map_eq_some_iff.1 h
  obtain ⟨hgrid, _, hcomplete⟩ := he p hp
  have hindex : p.index.tracks.OnGrid p.model.network.grid :=
    (hcomplete.faithful hgrid .tracks).toOnGrid
  change e.similarTracks catalog ids maxCount = _
  unfold Engine.similarTracks
  rw [hp]
  exact e.searchIndex_greedy hcomplete.trained hindex ids maxCount catalog.hasTrack

lemma Settles.of_published {catalog : Catalog} {a b : Engine} {q : SimilarQuery}
    {reply : Except QueryError (List Int)} (h : Settles catalog a q reply)
    (hp : a.published = b.published) : Settles catalog b q reply := by
  intro hq
  obtain ⟨ids, hids, hgenuine⟩ := h hq
  exact ⟨ids, hids, hgenuine.once, hgenuine.exist, hgenuine.others, hp ▸ hgenuine.placed⟩

/-- **All replies to queries that are made one after the other** are genuine. -/
lemma Sound.settles_replies (he : Sound e) (qs : List (Catalog × SimilarQuery)) :
    List.Forall₂ (fun q => Settles q.1 e q.2) qs (replies e qs).1 := by
  induction qs using List.reverseRecOn with
  | nil => exact .nil
  | append_singleton qs q ih =>
    obtain ⟨g, hg⟩ := replies_eq e qs
    have hpublished : (replies e qs).2.published = e.published := by rw [hg]
    have hlast : Sound (replies e qs).2 := by
      rw [Sound, hpublished]
      exact he
    rw [replies_concat]
    exact List.rel_append ih (.cons ((hlast.settles q.1 q.2).of_published hpublished) .nil)

lemma seen_of_run (env : Surroundings) (call : Call) (e : Engine) (d : Disk) :
    (call.run env (Session.start e d)).2.seen =
      (replies e (asked env (call.run env (Session.start e d)).2.progress)).1 := by
  have hend := run_end env call e d
  generalize call.run env (Session.start e d) = ended at hend ⊢
  cases hend with
  | kept r t listed hr hu => exact hu.seen
  | adopted m t hm hrel => exact hrel.seen
  | trained m d' t hm hrel => exact hrel.seen
  | late m d' r t hm hr hrel => exact hrel.seen

end Sound

/-! ### Engines and their catalog -/

structure World where
  engine : Engine
  records : Records

inductive Move where
  /-- The engine comes to a model, on the disk as it is then. -/
  | call (env : Surroundings) (call : Call) (d : Disk)
  | cancel
  | ask (q : SimilarQuery)
  | configure (settings : Settings)
  | addTrack (track : Int) (t : Track)
  | removeTrack (track : Int)
  | removeRelease (release : Int)
  | removeArtist (artist : Int)

namespace World

/-- What a call of the engine comes to. The surroundings tell what the catalog is at each moment of
the call, so it may change meanwhile. -/
def session (w : World) (env : Surroundings) (call : Call) (d : Disk) : Session :=
  (call.run env (Session.start w.engine d)).2

def step (w : World) : Move → World
  | .call env call d => { w with engine := (w.session env call d).engine }
  | .cancel => { w with engine := w.engine.cancel }
  | .ask q => { w with engine := (w.engine.answer w.records.catalog q).2 }
  | .configure settings => { w with engine := { w.engine with settings } }
  | .addTrack track t => { w with records := w.records.addTrack track t }
  | .removeTrack track => { w with records := w.records.removeTrack track }
  | .removeRelease release => { w with records := w.records.removeRelease release }
  | .removeArtist artist => { w with records := w.records.removeArtist artist }

def run (w : World) (moves : List Move) : World :=
  moves.foldl step w

end World

/-- A model that is given in a move lies on its grid. -/
def Move.IsOnGrid : Move → Prop
  | .call _ (.cached m) _ => m.OnGrid
  | _ => True

/-- **Every move keeps the engine sound.** Nothing that happens to the catalog concerns it. -/
lemma Sound.step {w : World} (h : Sound w.engine) {move : Move} (hm : move.IsOnGrid) :
    Sound (w.step move).engine := by
  cases move with
  | call env call d =>
    refine h.call _ d fun m hcall => ?_
    subst hcall
    exact hm
  | ask q =>
    obtain ⟨g, hg⟩ := answer_eq w.records.catalog w.engine q
    change Sound (w.engine.answer w.records.catalog q).2
    rw [hg]
    exact h
  | cancel => exact h
  | configure settings => exact h
  | addTrack track t => exact h
  | removeTrack track => exact h
  | removeRelease release => exact h
  | removeArtist artist => exact h

/-- **The engine stays sound** in every run. -/
lemma Sound.run {w : World} (h : Sound w.engine) {moves : List Move}
    (hm : ∀ move ∈ moves, move.IsOnGrid) : Sound (w.run moves).engine := by
  induction moves generalizing w with
  | nil => exact h
  | cons move moves ih =>
    obtain ⟨hmove, hmoves⟩ := List.forall_mem_cons.1 hm
    exact ih (h.step hmove) hmoves

/-- **Answers are genuine at any time**, in every run of an engine and its catalog, if the models
that are given to the engine lie on their grids. Whatever has been loaded and trained, called off,
asked, recorded and forgotten so far: every query for no fewer entities than none is answered, with
entities that the catalog has at that moment, each once, which the query is not about and which are
in a cell of an index of the published model that the query searches. And so are the queries that
the listener makes during a call, each of the catalog as it is then. -/
theorem answers_stay_genuine {settings : Settings} {registry : Registry}
    {defaults : FeatureSettings}
    {freshSeed : Nat} {e : Engine} (he : make settings registry defaults freshSeed = .ok e)
    (r : Records) {moves : List Move} (hm : ∀ move ∈ moves, move.IsOnGrid) :
    ∀ done, done <+: moves →
      let w := World.run ⟨e, r⟩ done
      (∀ q, Settles w.records.catalog w.engine q (w.engine.answer w.records.catalog q).1) ∧
        ∀ env call d, List.Forall₂ (fun q => Settles q.1 w.engine q.2)
          (asked env (w.session env call d).progress) (w.session env call d).seen := by
  intro done hdone w
  have hsound : Sound w.engine :=
    Sound.run (sound_of_make he) fun move hmove => hm move (hdone.subset hmove)
  refine ⟨hsound.settles w.records.catalog, fun env call d => ?_⟩
  rw [World.session, seen_of_run]
  exact hsound.settles_replies _

def triadRecords : Records :=
  ModelIndex.duetRecords.addTrack 3 ⟨some 7, []⟩

def triadModel : Model :=
  { duetModel with
    positions := ModelIndex.duetPositions.insert 3 ((∅ : PositionSet).insert ⟨0, 0⟩) }

/-- A track comes to two others, a model of all three is given to an engine, and one of them is
forgotten. -/
def triadMoves : List Move :=
  [.addTrack 3 ⟨some 7, []⟩,
    .call { duetSurroundings with catalog := triadRecords.catalog } (.cached triadModel) Disk.empty,
    .ask (.tracks [1] 3), .removeTrack 2]

def triadWorld (moves : ℕ) : World :=
  World.run ⟨bareEngine, ModelIndex.duetRecords⟩ (triadMoves.take moves)

lemma isOnGrid_triadMoves : ∀ move ∈ triadMoves, move.IsOnGrid := by
  have hmodel : triadModel.OnGrid := by
    refine ModelIndex.holds_duetPositions.insert 3 fun p hp => ?_
    simp only [PositionSet.mem_insert, Std.ExtTreeSet.not_mem_empty, or_false] at hp
    subst hp
    decide
  simp only [triadMoves, List.forall_mem_cons, Move.IsOnGrid]
  exact ⟨trivial, hmodel, trivial, trivial, nofun⟩

lemma sound_triadWorld (moves : ℕ) : Sound (triadWorld moves).engine :=
  Sound.run (sound_of_make (rfl : make (.standard ⟨"", []⟩) [] .standard 0 = .ok bareEngine))
    fun move hmove => isOnGrid_triadMoves move (List.mem_of_mem_take hmove)

/-- The model keeps the track that is forgotten, but no answer does. -/
theorem answers_stay_genuine_triad :
    make (.standard ⟨"", []⟩) [] .standard 0 = .ok bareEngine ∧
      (∀ move ∈ triadMoves, move.IsOnGrid) ∧
      ∀ x ∈ [(3, [3, 2]), (4, [(3 : Int)])], let w := triadWorld x.1
        (w.engine.answer w.records.catalog (.tracks [1] 3)).1 = .ok x.2 ∧
          Genuine w.records.catalog w.engine (.tracks [1] 3) x.2 := by
  have hmade : make (.standard ⟨"", []⟩) [] .standard 0 = .ok bareEngine := rfl
  refine ⟨hmade, isOnGrid_triadMoves, fun x hx => ?_⟩
  have hanswer : ((triadWorld x.1).engine.answer (triadWorld x.1).records.catalog
      (.tracks [1] 3)).1 = .ok x.2 := by
    simp only [List.mem_cons, List.not_mem_nil, or_false] at hx
    rcases hx with rfl | rfl
    · exact (sound_triadWorld 3).similarTracks (by decide +kernel)
    · exact (sound_triadWorld 4).similarTracks (by decide +kernel)
  obtain ⟨hsettles, -⟩ := answers_stay_genuine hmade ModelIndex.duetRecords isOnGrid_triadMoves _
    (List.take_prefix x.1 triadMoves)
  obtain ⟨ids, hids, hgenuine⟩ := hsettles (.tracks [1] 3) (by decide)
  obtain rfl : ids = x.2 := Except.ok.inj (hids.symm.trans hanswer)
  exact ⟨hanswer, hgenuine⟩

end SoundAtlas.Engine
