import Mathlib.Data.List.Induction
import Mathlib.Tactic.Lemma
import Mathlib.Tactic.Tauto
import SoundAtlas.Engine.Loading

/-!
A load under way. Until it publishes a model, the engine answers as it did before, its disk stays as
it is, and loading counts as cancelled if it was before, or if something that has happened meanwhile
has cancelled it.
-/

namespace SoundAtlas.Engine

/-! ### Answers -/

/-- Engines of which no query can tell one from the other. -/
structure Alike (a b : Engine) : Prop where
  settings : a.settings = b.settings
  published : a.published = b.published
  evictions : a.evictions = b.evictions

variable {a b : Engine} {catalog : Catalog}

lemma Alike.searchIndex (h : Alike a b) (p : Published) (index : EntityIndex) (ids : List Int)
    (maxCount : Int) (accept : Int → Bool) :
    a.searchIndex p index ids maxCount accept = b.searchIndex p index ids maxCount accept := by
  unfold Engine.searchIndex maxDistance
  rw [h.settings]

lemma Alike.similarTracks (h : Alike a b) (ids : List Int) (maxCount : Int) :
    a.similarTracks catalog ids maxCount = b.similarTracks catalog ids maxCount := by
  unfold Engine.similarTracks
  simp only [h.published, h.searchIndex]

lemma Alike.artistUnion (h : Alike a b) (p : Published) (artist maxCount : Int)
    (roles : List LinkType) (found : List Int) :
    a.artistUnion catalog p artist maxCount roles found =
      b.artistUnion catalog p artist maxCount roles found := by
  induction roles generalizing found with
  | nil => rfl
  | cons role roles ih => simp only [Engine.artistUnion, h.searchIndex, ih]

/-- **Engines that are alike give the same answers**, and stay alike. -/
lemma Alike.answer (catalog : Catalog) (h : Alike a b) (q : SimilarQuery) :
    (a.answer catalog q).1 = (b.answer catalog q).1 ∧
      Alike (a.answer catalog q).2 (b.answer catalog q).2 := by
  cases q with
  | tracks ids maxCount => exact ⟨h.similarTracks ids maxCount, h⟩
  | trackList id maxCount =>
    refine ⟨?_, h⟩
    simp only [Engine.answer, similarToList, h.similarTracks]
  | releases id maxCount =>
    refine ⟨?_, h⟩
    simp only [Engine.answer, similarReleases, h.published, h.searchIndex]
  | artists id roles maxCount =>
    simp only [Engine.answer, similarArtists, h.published, h.artistUnion, h.evictions]
    cases b.published with
    | none => exact ⟨rfl, h⟩
    | some p =>
      dsimp only
      cases b.artistUnion catalog p id maxCount (inOrder roles) [] with
      | error e => exact ⟨rfl, h⟩
      | ok found => exact ⟨rfl, h.settings, rfl, rfl⟩

lemma answer_eq (catalog : Catalog) (e : Engine) (q : SimilarQuery) :
    ∃ g, (e.answer catalog q).2 = { e with evictions := g } := by
  cases q with
  | artists id roles maxCount =>
    simp only [Engine.answer, similarArtists]
    split
    · exact ⟨e.evictions, rfl⟩
    · split
      · exact ⟨e.evictions, rfl⟩
      · exact ⟨_, rfl⟩
  | _ => exact ⟨e.evictions, rfl⟩

/-- The answers to queries that are made one after the other, each of the catalog as it is then, and
the engine after them. -/
def replies (e : Engine) (qs : List (Catalog × SimilarQuery)) :
    List (Except QueryError (List Int)) × Engine :=
  qs.foldl (fun r q => (r.1 ++ [(r.2.answer q.1 q.2).1], (r.2.answer q.1 q.2).2)) ([], e)

lemma replies_concat (e : Engine) (qs : List (Catalog × SimilarQuery))
    (q : Catalog × SimilarQuery) :
    replies e (qs ++ [q]) =
      ((replies e qs).1 ++ [((replies e qs).2.answer q.1 q.2).1],
        ((replies e qs).2.answer q.1 q.2).2) := by
  simp [replies, List.foldl_append]

lemma replies_eq (e : Engine) (qs : List (Catalog × SimilarQuery)) :
    ∃ g, (replies e qs).2 = { e with evictions := g } := by
  induction qs using List.reverseRecOn with
  | nil => exact ⟨e.evictions, rfl⟩
  | append_singleton qs q ih =>
    obtain ⟨g, hg⟩ := answer_eq q.1 (replies e qs).2 q.2
    obtain ⟨g', hg'⟩ := ih
    exact ⟨g, by rw [replies_concat, hg, hg']⟩

/-- An engine is like one that has answered queries if it has its settings, its model and the random
choices that are left to that one. -/
lemma alike_replies {qs : List (Catalog × SimilarQuery)} : Alike a (replies b qs).2 ↔
    a.settings = b.settings ∧ a.published = b.published ∧
      a.evictions = (replies b qs).2.evictions := by
  obtain ⟨g, hg⟩ := replies_eq b qs
  rw [hg]
  exact ⟨fun h => ⟨h.settings, h.published, h.evictions⟩, fun ⟨hs, hp, he⟩ => ⟨hs, hp, he⟩⟩

/-! ### What has happened -/

/-- The queries that have been made when so many iterations have been heard of. -/
def asked (env : Surroundings) (progress : List (Nat × Nat)) :
    List (Catalog × SimilarQuery) :=
  progress.flatMap fun k => env.queries k.1

/-- What has happened in a load; `listed` says whether the tracks have been listed. -/
def Heard (listed : Bool) (s : Session) : Event → Prop
  | .listing => listed = true
  | .fetch n => n < s.fetched.length
  | .progress k => ∃ count, (k, count) ∈ s.progress
  | .lookUp n => n < s.lookUps

/-- A load by an engine `e`, whether or not it has published a model. -/
structure Course (env : Surroundings) (e : Engine) (listed : Bool) (s : Session) : Prop where
  /-- All queries were answered by the engine as it was before. -/
  seen : s.seen = (replies e (asked env s.progress)).1
  /-- Whether loading has been cancelled. -/
  flag : s.isCancelled = true ↔
    e.cancelRequested = true ∨ ∃ ev, Heard listed s ev ∧ env.cancels ev = true

/-- A load by an engine `e` on a disk that has not published a model. -/
structure Underway (env : Surroundings) (e : Engine) (d : Disk) (listed : Bool) (s : Session) : Prop
    extends Course env e listed s where
  alike : Alike s.engine (replies e (asked env s.progress)).2
  disk : s.disk = d

variable {env : Surroundings} {e : Engine} {d : Disk} {listed : Bool} {s t : Session} {ev : Event}

lemma underway_start (env : Surroundings) (e : Engine) (d : Disk) :
    Underway env e d false (Session.start e d) where
  seen := rfl
  flag := by
    refine ⟨Or.inl, fun h => h.resolve_right ?_⟩
    rintro ⟨ev, hev, -⟩
    cases ev <;> simp [Heard, Session.start] at hev
  alike := ⟨rfl, rfl, rfl⟩
  disk := rfl

lemma Underway.published (h : Underway env e d listed s) : s.engine.published = e.published :=
  (alike_replies.1 h.alike).2.1

/-! ### What others do meanwhile -/

lemma isCancelled_meet :
    (s.meet env ev).isCancelled = true ↔ s.isCancelled = true ∨ env.cancels ev = true := by
  unfold Session.meet
  split
  · rename_i h
    simp [Session.isCancelled, Engine.cancelRequested, Engine.cancel,
      Network.CancellationToken.cancel, h]
  · rename_i h
    simp [h]

@[simp]
lemma disk_meet : (s.meet env ev).disk = s.disk := by
  unfold Session.meet
  split <;> rfl

@[simp]
lemma fetched_meet : (s.meet env ev).fetched = s.fetched := by
  unfold Session.meet
  split <;> rfl

@[simp]
lemma lookUps_meet : (s.meet env ev).lookUps = s.lookUps := by
  unfold Session.meet
  split <;> rfl

@[simp]
lemma progress_meet : (s.meet env ev).progress = s.progress := by
  unfold Session.meet
  split <;> rfl

@[simp]
lemma seen_meet : (s.meet env ev).seen = s.seen := by
  unfold Session.meet
  split <;> rfl

lemma Alike.meet (h : Alike s.engine b) : Alike (s.meet env ev).engine b := by
  unfold Session.meet
  split
  · exact ⟨h.settings, h.published, h.evictions⟩
  · exact h

/-! ### One event after the other -/

lemma Course.flag_step (h : Course env e listed s) (ev : Event) (listed' : Bool)
    (hc : t.isCancelled = (s.meet env ev).isCancelled)
    (hh : ∀ ev', Heard listed' t ev' ↔ Heard listed s ev' ∨ ev' = ev) :
    t.isCancelled = true ↔
      e.cancelRequested = true ∨ ∃ ev', Heard listed' t ev' ∧ env.cancels ev' = true := by
  rw [hc, isCancelled_meet, h.flag]
  simp only [hh]
  constructor
  · rintro ((he | ⟨ev', hev, hcan⟩) | hcan)
    · exact Or.inl he
    · exact Or.inr ⟨ev', Or.inl hev, hcan⟩
    · exact Or.inr ⟨ev, Or.inr rfl, hcan⟩
  · rintro (he | ⟨ev', hev | rfl, hcan⟩)
    · exact Or.inl (Or.inl he)
    · exact Or.inl (Or.inr ⟨ev', hev, hcan⟩)
    · exact Or.inr hcan

lemma Underway.list (h : Underway env e d false s) :
    Underway env e d true (s.meet env .listing) := by
  have hflag := h.flag_step (t := s.meet env .listing) .listing true rfl fun ev' => by
    cases ev' <;> simp [Heard]
  exact ⟨⟨by simpa using h.seen, hflag⟩, by simpa using h.alike.meet, by simpa using h.disk⟩

lemma Underway.fetch (h : Underway env e d listed s) (names : List FeatureName) (track : Int) :
    Underway env e d listed (fetch env names track s).2 := by
  have hflag := h.flag_step (t := (Engine.fetch env names track s).2) (.fetch s.fetched.length)
    listed rfl fun ev' => by
      cases ev' <;> simp [Heard, Engine.fetch, Session.warn]
      omega
  refine ⟨⟨?_, hflag⟩, ?_, ?_⟩
  · simpa [Engine.fetch, Session.warn] using h.seen
  · simpa [Engine.fetch, Session.warn] using h.alike.meet
  · simpa [Engine.fetch, Session.warn] using h.disk

lemma Underway.lookUp (h : Underway env e d listed s) :
    Underway env e d listed ((buildWatch env).lookUp s) := by
  have hflag := h.flag_step (t := (buildWatch env).lookUp s) (.lookUp s.lookUps) listed rfl
    fun ev' => by
      cases ev' <;> simp [Heard, buildWatch]
      omega
  refine ⟨⟨?_, hflag⟩, ?_, ?_⟩
  · simpa [buildWatch] using h.seen
  · simpa [buildWatch] using h.alike.meet
  · simpa [buildWatch] using h.disk

/-- Queries only cost random choices, and are answered as the engine answers them that has answered
those before. -/
lemma ask_all (qs done : List (Catalog × SimilarQuery))
    (hs : s.seen = (replies e done).1)
    (ha : Alike s.engine (replies e done).2) :
    ∃ g, qs.foldl (Session.ask) s =
        { s with
          engine := { s.engine with evictions := g }
          seen := (replies e (done ++ qs)).1 } ∧
      g = (replies e (done ++ qs)).2.evictions := by
  induction qs generalizing done s with
  | nil =>
    refine ⟨s.engine.evictions, ?_, by rw [List.append_nil, ha.evictions]⟩
    rw [List.append_nil, ← hs]
    rfl
  | cons q qs ih =>
    obtain ⟨hans, halike⟩ := ha.answer q.1 q.2
    obtain ⟨g, hg⟩ := answer_eq q.1 s.engine q.2
    have hstep : Session.ask s q =
        { s with
          engine := { s.engine with evictions := g }
          seen := (replies e (done ++ [q])).1 } := by
      unfold Session.ask
      dsimp only
      rw [hg, hans, hs, replies_concat]
    obtain ⟨g', hg', hev⟩ := ih (s := Session.ask s q) (done ++ [q])
      (by rw [hstep]) (by rw [hstep, replies_concat, ← hg]; exact halike)
    rw [List.append_assoc, List.singleton_append] at hg' hev
    refine ⟨g', ?_, hev⟩
    rw [List.foldl_cons, hg', hstep]

/-- A load of whose iteration the listener has heard, with what it has seen by then and the random
choices that its queries have left. -/
def told (s : Session) (k count : Nat) (g : Random.Twister)
    (seen : List (Except QueryError (List Int))) : Session :=
  { s with
    progress := s.progress ++ [(k, count)]
    engine := { s.engine with evictions := g }
    seen }

/-- **The listener hears of an iteration**, and makes its queries. -/
lemma Underway.announce (h : Underway env e d listed s) (k count : Nat) :
    Underway env e d listed ((trainingWatch env).announce k count s).2 := by
  obtain ⟨hsettings, hpublished, -⟩ := alike_replies.1 h.alike
  have hasked : asked env (s.progress ++ [(k, count)]) = asked env s.progress ++ env.queries k := by
    simp [asked]
  obtain ⟨g, hg, hev⟩ := ask_all (s := { s with progress := s.progress ++ [(k, count)] })
    (env.queries k) (asked env s.progress) h.seen h.alike
  rw [← hasked] at hg hev
  have hstep : ((trainingWatch env).announce k count s).2 =
      (told s k count g (replies e (asked env (s.progress ++ [(k, count)]))).1).meet env
        (.progress k) := by
    unfold told
    rw [← hg]
    rfl
  rw [hstep]
  generalize hseen : (replies e (asked env (s.progress ++ [(k, count)]))).1 = seen
  have hflag := h.flag_step (t := (told s k count g seen).meet env (.progress k)) (.progress k)
    listed (by rw [Bool.eq_iff_iff, isCancelled_meet, isCancelled_meet]; rfl) fun ev' => by
      cases ev' with
      | progress j =>
        simp only [Heard, progress_meet, told, List.mem_append, List.mem_singleton, Prod.mk.injEq,
          exists_or, Event.progress.injEq, exists_and_left, exists_eq, and_true]
      | _ => simp [Heard, told]
  refine ⟨⟨by simp [told, hseen], hflag⟩, ?_, by simpa [told] using h.disk⟩
  rw [progress_meet]
  apply Alike.meet
  exact alike_replies.2 ⟨hsettings, hpublished, hev⟩

end SoundAtlas.Engine
