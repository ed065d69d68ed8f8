import SoundAtlas.Proofs.Engine.Eviction
import SoundAtlas.Proofs.Engine.Lessons

/-!
The two sources of random choices of an engine. Trainings draw on one of them, queries for artists
on the other, and neither can tell what is done with the other one. So trainings come to the same
models and queries to the same answers in all runs that give them the same, whatever else happens in
between.
-/

namespace SoundAtlas.Engine

variable {env : Surroundings} {e : Engine} {d : Disk} {listed : Bool} {s : Session} {m : Model}

/-! ### Runs -/

inductive Use where
  /-- The engine comes to a model. -/
  | request (q : Request)
  | ask (catalog : Catalog) (q : SimilarQuery)
  | configure (settings : Settings)
  | cancel

def Use.next (e : Engine) : Use → Engine
  | .request q => (q.run e).2.engine
  | .ask catalog q => (e.answer catalog q).2
  | .configure settings => { e with settings }
  | .cancel => e.cancel

def gather {α : Type*} (note : Engine → Use → List α) : Engine → List Use → List α
  | _, [] => []
  | e, u :: us => note e u ++ gather note (u.next e) us

/-! ### Trainings -/

def Use.attempt? (e : Engine) : Use → Option Attempt
  | .request q => q.call.attempt? q.env (Session.start e q.disk)
  | _ => none

/-- The attempts to train in a run. -/
def attempts : Engine → List Use → List Attempt :=
  gather fun e u => (u.attempt? e).toList

@[simp]
lemma attempts_cons (e : Engine) (u : Use) (us : List Use) :
    attempts e (u :: us) = (u.attempt? e).toList ++ attempts (u.next e) us :=
  rfl

/-- **Nothing is trained on when loading has been cancelled.** -/
lemma attemptAt?_of_cancelled (hs : s.isCancelled = true) (t : TrainSettings) :
    attemptAt? env t s = none := by
  have hcollected : ∀ x xs s', collectSamples env (Feature.orderedNames t.features.names) s ≠
      (.ok (some (x :: xs)), s') := by
    intro x xs s'
    unfold collectSamples
    dsimp only
    split
    · simp
    · rename_i tracks _
      cases tracks with
      | nil => simp [collect]
      | cons track tracks =>
        rw [collect, if_pos (isCancelled_meet.2 (.inl hs))]
        simp
  unfold attemptAt?
  dsimp only
  split
  · rename_i heq
    exact absurd heq (hcollected _ _ _)
  · rfl

lemma ownAttempt?_of_cancelled (hs : s.isCancelled = true) : ownAttempt? env s = none := by
  unfold ownAttempt?
  split
  · rfl
  · exact attemptAt?_of_cancelled hs _

lemma Use.attempt?_of_cancelled (he : e.cancelRequested = true) (u : Use) :
    u.attempt? e = none := by
  cases u with
  | request q =>
    have hs : (Session.start e q.disk).isCancelled = true := he
    unfold Use.attempt? Call.attempt?
    dsimp only
    split
    · rfl
    · exact attemptAt?_of_cancelled hs _
    · exact ownAttempt?_of_cancelled hs
    · split
      · rfl
      · exact ownAttempt?_of_cancelled hs
    · split
      · exact ownAttempt?_of_cancelled hs
      · rfl
  | _ => rfl

lemma Use.next_of_cancelled (he : e.cancelRequested = true) (u : Use) :
    (u.next e).cancelRequested = true := by
  cases u with
  | request q => exact (run_of_cancelled he q).1
  | ask catalog q =>
    obtain ⟨g, hg⟩ := answer_eq catalog e q
    rw [Use.next, hg]
    exact he
  | configure settings => exact he
  | cancel => rfl

lemma attempts_of_cancelled (he : e.cancelRequested = true) (us : List Use) :
    attempts e us = [] := by
  induction us generalizing e with
  | nil => rfl
  | cons u us ih =>
    rw [attempts_cons, u.attempt?_of_cancelled he, ih (u.next_of_cancelled he)]
    rfl

/-- Attempts that follow each other: each begins with the generator as the one before has left it,
and none comes after loading has been cancelled. -/
inductive Learned : Random.Pcg → List Attempt → Prop where
  | nil (g : Random.Pcg) : Learned g []
  | cons (x : Attempt) {xs : List Attempt} (hlast : x.ended.2.isCancelled = true → xs = [])
    (h : Learned x.ended.2.engine.generator xs) : Learned x.session.engine.generator (x :: xs)

/-- **Only trainings draw on the generator**, step by step. -/
lemma Use.generator_next (e : Engine) (u : Use) :
    (u.attempt? e = none ∧ (u.next e).generator = e.generator) ∨
      ∃ x, u.attempt? e = some x ∧ x.session.engine.generator = e.generator ∧
        u.next e = x.ended.2.engine := by
  cases u with
  | request q =>
    have h := attempted_run q.env q.call e q.disk
    unfold Use.attempt? Use.next Request.run
    dsimp only
    generalize q.call.attempt? q.env (Session.start e q.disk) = x? at h ⊢
    generalize (q.call.run q.env (Session.start e q.disk)).2.engine = e' at h ⊢
    cases h with
    | without r e' hr hgenerator => exact .inl ⟨rfl, hgenerator⟩
    | within x r hgenerator => exact .inr ⟨x, rfl, hgenerator, rfl⟩
  | ask catalog q =>
    obtain ⟨g, hg⟩ := answer_eq catalog e q
    rw [Use.next, hg]
    exact .inl ⟨rfl, rfl⟩
  | configure settings => exact .inl ⟨rfl, rfl⟩
  | cancel => exact .inl ⟨rfl, rfl⟩

/-- **The attempts of a run follow each other**, whatever comes between them. -/
lemma learned_attempts (e : Engine) (us : List Use) : Learned e.generator (attempts e us) := by
  induction us generalizing e with
  | nil => exact .nil _
  | cons u us ih =>
    have hrest := ih (u.next e)
    have hlast : (u.next e).cancelRequested = true → attempts (u.next e) us = [] := fun h =>
      attempts_of_cancelled h us
    rw [attempts_cons]
    obtain ⟨hnone, hkept⟩ | ⟨x, hx, hbegun, hnext⟩ := u.generator_next e
    · rw [hnone, ← hkept]
      exact hrest
    · rw [hx, ← hbegun]
      rw [hnext] at hrest hlast ⊢
      exact .cons x hlast hrest

/-- An attempt of which nothing can be said: it is called off, or the catalog fails after all. -/
def Attempt.IsSpoiled (x : Attempt) : Prop :=
  CalledOff x.ended ∨ Refused x.env.catalog x.ended

/-- Two attempts come to the same model, whether or not it could be reported on, or fail alike, if
something can be said of both. -/
def Attempt.EndsAs (x y : Attempt) : Prop :=
  x.IsSpoiled ∨ y.IsSpoiled ∨ x.result = y.result ∨
    ∃ m, Yields x.env m x.ended ∧ Yields y.env m y.ended

lemma Attempt.EndsAs.model_eq {x y : Attempt} (h : x.EndsAs y) {m m' : Model}
    (hx : x.result = .ok (some m)) (hy : y.result = .ok (some m')) : m = m' := by
  have hnot {z : Attempt} {m : Model} (hz : z.result = .ok (some m)) : ¬ z.IsSpoiled := by
    rintro (⟨hoff, -⟩ | ⟨_, _, -, hrefused⟩)
    · cases hz.symm.trans hoff
    · cases hz.symm.trans hrefused
  have hyields {z : Attempt} {m n : Model} (hz : z.result = .ok (some m))
      (hn : Yields z.env n z.ended) : n = m := by
    obtain ⟨-, hok | ⟨herror, -⟩⟩ := hn
    · simpa using hok.symm.trans hz
    · cases hz.symm.trans herror
  obtain hspoiled | hspoiled | hsame | ⟨n, hxn, hyn⟩ := h
  · exact absurd hspoiled (hnot hx)
  · exact absurd hspoiled (hnot hy)
  · simpa using hx.symm.trans (hsame.trans hy)
  · exact (hyields hx hxn).symm.trans (hyields hy hyn)

/-- **Attempts at the same lessons come to the same models** if they begin with one generator. -/
lemma Learned.agree {g g' : Random.Pcg} {xs ys : List Attempt} (hxs : Learned g xs)
    (hys : Learned g' ys) (hg : g = g') (h : xs.map Attempt.lesson = ys.map Attempt.lesson) :
    List.Forall₂ Attempt.EndsAs xs ys := by
  induction hxs generalizing g' ys with
  | nil =>
    obtain rfl : ys = [] := List.map_eq_nil_iff.1 h.symm
    exact .nil
  | @cons x xs hlast hxs ih =>
    obtain _ | @⟨y, ys, hlast', hys⟩ := hys
    · simp at h
    obtain ⟨hlesson, hlessons⟩ := List.cons_eq_cons.1 h
    -- after an attempt that is called off there are no others
    have hnone : xs = [] ↔ ys = [] := by
      rw [← List.map_eq_nil_iff, hlessons, List.map_eq_nil_iff]
    have hends (hxs : xs = []) (hxy : x.EndsAs y) :
        List.Forall₂ Attempt.EndsAs (x :: xs) (y :: ys) := by
      rw [hxs, hnone.1 hxs]
      exact .cons hxy .nil
    obtain hoff | hoff | ⟨hdrawn, hresult⟩ := Attempt.agree hlesson hg
    · exact hends (hlast hoff.2) (.inl (.inl hoff))
    · exact hends (hnone.2 (hlast' hoff.2)) (.inr (.inl (.inl hoff)))
    · refine .cons ?_ (ih hys hdrawn hlessons)
      obtain hsame | hyields | hrefused | hrefused := hresult
      · exact .inr (.inr (.inl hsame))
      · exact .inr (.inr (.inr hyields))
      · exact .inl (.inr hrefused)
      · exact .inr (.inl (.inr hrefused))

/-! ### Queries for artists -/

abbrev Reply := Except QueryError (List Int)

/-- All that an answer to a query for artists depends on, but for the random choices. -/
structure Asking where
  /-- What has been published, but for what only matters to training. -/
  published : Option (Model × ModelIndex × Float)
  factor : Option Float
  hasArtist : Int → Bool
  artist : Int
  roles : List LinkType
  maxCount : Int

def asking? (catalog : Catalog) (e : Engine) : SimilarQuery → Option Asking
  | .artists artist roles maxCount => some
    { published := e.published.map fun p => (p.model.restored, p.index, p.median)
      factor := e.settings.factor
      hasArtist := catalog.hasArtist
      artist, roles, maxCount }
  | _ => none

/-- **The same query has the same answer** with the same random choices, and leaves the same. -/
lemma answer_agree {a b : Engine} {catalog catalog' : Catalog} {q q' : SimilarQuery} {x : Asking}
    (ha : asking? catalog a q = some x) (hb : asking? catalog' b q' = some x)
    (hevictions : a.evictions = b.evictions) :
    (a.answer catalog q).1 = (b.answer catalog' q').1 ∧
      (a.answer catalog q).2.evictions = (b.answer catalog' q').2.evictions := by
  cases q with
  | artists artist roles maxCount =>
    cases q' with
    | artists artist' roles' maxCount' =>
      obtain rfl := Option.some.inj ha
      simp only [asking?, Option.some.injEq, Asking.mk.injEq] at hb
      obtain ⟨hpublished, hfactor, hexist, rfl, rfl, rfl⟩ := hb
      simp only [answer, similarArtists]
      cases hpa : a.published with
      | none =>
        obtain hpb : b.published = none := by simpa [hpa] using hpublished
        rw [hpb]
        exact ⟨rfl, hevictions⟩
      | some p =>
        rw [hpa, Option.map_some, Option.map_eq_some_iff] at hpublished
        obtain ⟨p', hpb, hsame⟩ := hpublished
        simp only [Prod.mk.injEq] at hsame
        have htwin : p.Twin p' := ⟨hsame.1, hsame.2.1, hsame.2.2⟩
        rw [hpb, hevictions]
        dsimp only
        rw [artistUnion_twin hfactor hexist htwin]
        cases a.artistUnion catalog p artist' maxCount' (inOrder roles') [] with
        | error err => exact ⟨rfl, hevictions⟩
        | ok found => exact ⟨rfl, rfl⟩
    | _ => cases hb
  | _ => cases ha

/-- Only queries for artists cost random choices. -/
lemma answer_of_asking?_none {catalog : Catalog} {q : SimilarQuery}
    (h : asking? catalog e q = none) :
    (e.answer catalog q).2 = e := by
  cases q with
  | artists => cases h
  | _ => rfl

def artistQueries (e : Engine) (qs : List (Catalog × SimilarQuery)) (rs : List Reply) :
    List (Asking × Reply) :=
  (qs.zip rs).filterMap fun q => (asking? q.1.1 e q.1.2).map (·, q.2)

/-- The queries for artists in a use, those of a listener included, with their answers. -/
def Use.artistQueries (e : Engine) : Use → List (Asking × Reply)
  | .request q =>
    let t := (q.run e).2
    Engine.artistQueries e (asked q.env t.progress) t.seen
  | .ask catalog q => Engine.artistQueries e [(catalog, q)] [(e.answer catalog q).1]
  | _ => []

/-- The queries for artists in a run, with their answers. -/
def runQueries : Engine → List Use → List (Asking × Reply) :=
  gather fun e u => u.artistQueries e

@[simp]
lemma runQueries_cons (e : Engine) (u : Use) (us : List Use) :
    runQueries e (u :: us) = u.artistQueries e ++ runQueries (u.next e) us :=
  rfl

/-- Queries for artists that are answered one after the other, each with the random choices that the
one before has left. -/
inductive Drawn : Random.Twister → List (Asking × Reply) → Random.Twister → Prop where
  | nil (g : Random.Twister) : Drawn g [] g
  | cons (catalog : Catalog) (e : Engine) (q : SimilarQuery) (x : Asking)
    (hx : asking? catalog e q = some x) {xs : List (Asking × Reply)} {g : Random.Twister}
    (h : Drawn (e.answer catalog q).2.evictions xs g) :
    Drawn e.evictions ((x, (e.answer catalog q).1) :: xs) g

lemma Drawn.append {g g' g'' : Random.Twister} {xs ys : List (Asking × Reply)} (hxs : Drawn g xs g')
    (hys : Drawn g' ys g'') : Drawn g (xs ++ ys) g'' := by
  induction hxs with
  | nil => exact hys
  | cons catalog e q x hx _ ih => exact .cons catalog e q x hx (ih hys)

/-- **The same queries have the same answers** if they begin with the same random choices. -/
lemma Drawn.agree {g g' gx gy : Random.Twister} {xs ys : List (Asking × Reply)}
    (hxs : Drawn g xs gx)
    (hys : Drawn g' ys gy) (hg : g = g') (h : xs.map Prod.fst = ys.map Prod.fst) : xs = ys := by
  induction hxs generalizing g' ys with
  | nil => exact (List.map_eq_nil_iff.1 h.symm).symm
  | cons catalog e q x hx _ ih =>
    obtain _ | ⟨catalog', e', q', y, hy, hys⟩ := hys
    · simp at h
    obtain ⟨rfl, hrest⟩ := List.cons_eq_cons.1 h
    obtain ⟨hreply, hleft⟩ := answer_agree hx hy hg
    rw [ih hys hleft hrest, hreply]

lemma length_replies (e : Engine) (qs : List (Catalog × SimilarQuery)) :
    (replies e qs).1.length = qs.length := by
  induction qs using List.reverseRecOn with
  | nil => rfl
  | append_singleton qs q ih => rw [replies_concat, List.length_append, List.length_append, ih]; rfl

lemma drawn_replies (e : Engine) (qs : List (Catalog × SimilarQuery)) :
    Drawn e.evictions (artistQueries e qs (replies e qs).1) (replies e qs).2.evictions := by
  induction qs using List.reverseRecOn with
  | nil => exact .nil _
  | append_singleton qs q ih =>
    obtain ⟨catalog, q⟩ := q
    obtain ⟨g, hg⟩ := replies_eq e qs
    have hasking : asking? catalog (replies e qs).2 q = asking? catalog e q := by
      rw [hg]
      cases q <;> rfl
    rw [replies_concat, artistQueries, List.zip_append (length_replies e qs).symm,
      List.filterMap_append]
    refine ih.append ?_
    cases hx : asking? catalog e q with
    | none =>
      rw [hx] at hasking
      simpa [hx, answer_of_asking?_none hasking] using .nil _
    | some x =>
      rw [hx] at hasking
      simpa [hx] using .cons catalog _ q x hasking (.nil _)

/-! ### What queries have cost -/

/-- All that has been drawn on the random choices of queries is what the queries of the listener
cost. -/
def Spent (env : Surroundings) (e : Engine) (s : Session) : Prop :=
  s.engine.evictions = (replies e (asked env s.progress)).2.evictions

lemma Underway.spent (h : Underway env e d listed s) : Spent env e s :=
  h.alike.evictions

lemma spent_publish (h : Underway env e d listed s) (m : Model) :
    Spent env e (publish env m s).2 := by
  have hbuilt := building_build h m.positions.toList
    (.empty m.network.grid.width m.network.grid.height)
  unfold publish ModelIndex.build
  split <;> rename_i heq <;> rw [heq] at hbuilt <;> exact hbuilt.spent

lemma spent_adopt (h : Underway env e d listed s) (m : Model) : Spent env e (adopt env m s).2 := by
  have hpublished := spent_publish h m
  unfold adopt
  split <;> rename_i heq <;> rw [heq] at hpublished <;> exact hpublished

lemma spent_publishTrained (h : Underway env e d listed s) (n : Network)
    (positions : TrackPositions)
    (samples : Nat) : Spent env e (publishTrained env n positions samples s).2 := by
  unfold publishTrained
  split
  · exact h.spent
  · rename_i m _
    have hpublished := spent_publish h m
    split
    · rename_i heq
      rw [heq] at hpublished
      exact hpublished
    · rename_i heq
      rw [heq] at hpublished
      exact hpublished
    · rename_i s' heq
      rw [heq] at hpublished
      obtain ⟨⟨x, hx⟩, -⟩ := reportMetrics_spec env ⟨samples, m.network.medianNeighborDistance⟩ s'
      have hreported : Spent env e { s' with metrics := x } := hpublished
      rw [← hx] at hreported
      split <;> rename_i heq <;> rw [heq] at hreported <;> exact hreported

lemma spent_train (h : Underway env e d false s) (t : TrainSettings) :
    Spent env e (train env t s).2 := by
  unfold train
  extract_lets names
  split
  · exact h.spent
  · have hcollect := underway_collectSamples h names
    split <;> rename_i heq <;> rw [heq] at hcollect
    · exact hcollect.spent
    · exact hcollect.spent
    · exact hcollect.spent
    · rename_i dimensions _ _ samples s' hne
      have hon : Spent env e (trainOn env t dimensions samples s').2 := by
        have hplaced := trainOn_placed hcollect t dimensions samples hne
        generalize trainOn env t dimensions samples s' = ended at hplaced ⊢
        cases hplaced with
        | calledOff s hu => exact hu.spent
        | failed f s hu => exact hu.spent
        | placed n rows positions s hu => exact spent_publishTrained hu n positions _
      split <;> rename_i heq <;> rw [heq] at hon <;> exact hon

lemma spent_store (h : Spent env e s) (c : ModelCache) (m : Model) :
    Spent env e (store env c m s).2 := by
  unfold store
  extract_lets written s'
  split
  · exact h
  · split <;> exact h

lemma spent_loadByTraining (h : Underway env e d false s) :
    Spent env e (loadByTraining env s).2 := by
  unfold loadByTraining
  split
  · exact h.spent
  · rename_i t _
    have htrain := spent_train h t
    split
    · rename_i heq
      rw [heq] at htrain
      exact htrain
    · rename_i m s' c heq _
      rw [heq] at htrain
      have hstore := spent_store htrain c m
      split <;> rename_i hstored <;> rw [hstored] at hstore <;> exact hstore
    · rename_i heq _
      rw [heq] at htrain
      exact htrain

/-- **A call costs what its listener asks**, and nothing more. -/
lemma spent_run (env : Surroundings) (call : Call) (e : Engine) (d : Disk) :
    Spent env e (call.run env (Session.start e d)).2 := by
  have h := underway_start env e d
  cases call with
  | training t =>
    have htrain := spent_train h t
    unfold Call.run loadFromTraining
    dsimp only
    split <;> rename_i heq <;> rw [heq] at htrain <;> exact htrain
  | cached m => exact spent_adopt h m
  | load force =>
    unfold Call.run Engine.load
    cases env.cache with
    | none => cases force <;> exact spent_loadByTraining h
    | some c =>
      cases force with
      | true =>
        have hu := h.onDisk (c.invalidate d).2
        dsimp only [Session.start] at hu ⊢
        split
        · exact hu.spent
        · exact spent_loadByTraining hu
      | false =>
        have hu := h.warn ((c.read d).2.map .cache)
        dsimp only [Session.start] at hu ⊢
        split
        · exact hu.spent
        · exact spent_adopt hu _
        · exact spent_loadByTraining hu

/-- **Only queries for artists draw on the random choices of queries**, step by step. -/
lemma Use.drawn_next (e : Engine) (u : Use) :
    Drawn e.evictions (u.artistQueries e) (u.next e).evictions := by
  cases u with
  | request q =>
    have hspent : (q.run e).2.engine.evictions = _ := spent_run q.env q.call e q.disk
    have hseen : (q.run e).2.seen = _ := seen_of_run q.env q.call e q.disk
    have hdrawn := drawn_replies e (asked q.env (q.run e).2.progress)
    unfold Use.artistQueries Use.next
    dsimp only
    rw [hspent, hseen]
    exact hdrawn
  | ask catalog q => exact drawn_replies e [(catalog, q)]
  | configure settings => exact .nil _
  | cancel => exact .nil _

/-- **The queries of a run follow each other**, whatever comes between them. -/
lemma exists_drawn (e : Engine) (us : List Use) : ∃ g, Drawn e.evictions (runQueries e us) g := by
  induction us generalizing e with
  | nil => exact ⟨_, .nil _⟩
  | cons u us ih =>
    obtain ⟨g, hg⟩ := ih (u.next e)
    exact ⟨g, (u.drawn_next e).append hg⟩

/-! ### Any two runs -/

/-- What a new engine chooses at random depends on its seed only. -/
lemma generators_of_make {settings : Settings} {registry : Registry} {defaults : FeatureSettings}
    {freshSeed : Nat} (h : make settings registry defaults freshSeed = .ok e) :
    e.generator = .ofSeed (settings.seed.getD freshSeed).toNat ∧
      e.evictions = .ofSeed (settings.seed.getD freshSeed) := by
  unfold make at h
  dsimp only at h
  split at h
  · cases h
  · cases h
    exact ⟨rfl, rfl⟩

/-- **Trainings and queries do not disturb each other**, in any two runs of engines with one seed.
If they attempt the same trainings, these come one by one to the same models, bit by bit, or fail
alike; but for those that are called off because loading has been cancelled, and those whose catalog
does not answer for one of the tracks. If they make the same queries for artists, of engines that
have published the same, these have the same answers, however much has been trained in between.
Nothing else that is done before, between or meanwhile makes a difference: other queries, models
that are adopted, loads that find nothing to train on, other settings and other catalogs. A call
trains in one such attempt at most; if it says that it has trained, then the attempt has come to a
model, and that is what the engine has published. -/
theorem streams_independent {sa sb : Settings} {ra rb : Registry} {da db : FeatureSettings}
    {fa fb : Nat} {a b : Engine} (ha : make sa ra da fa = .ok a) (hb : make sb rb db fb = .ok b)
    (hseed : sa.seed.getD fa = sb.seed.getD fb) (us vs : List Use) :
    (∀ e (q : Request), Attempted e ((Use.request q).attempt? e) (q.run e).1 (q.run e).2.engine) ∧
      ((attempts a us).map Attempt.lesson = (attempts b vs).map Attempt.lesson →
        List.Forall₂ Attempt.EndsAs (attempts a us) (attempts b vs)) ∧
      ((runQueries a us).map Prod.fst = (runQueries b vs).map Prod.fst →
        runQueries a us = runQueries b vs) := by
  obtain ⟨hga, hea⟩ := generators_of_make ha
  obtain ⟨hgb, heb⟩ := generators_of_make hb
  refine ⟨fun e q => attempted_run q.env q.call e q.disk, fun h => ?_, fun h => ?_⟩
  · have hgenerator : a.generator = b.generator := by rw [hga, hgb, hseed]
    exact (learned_attempts a us).agree (learned_attempts b vs) hgenerator h
  · have hevictions : a.evictions = b.evictions := by rw [hea, heb, hseed]
    obtain ⟨gx, hx⟩ := exists_drawn a us
    obtain ⟨gy, hy⟩ := exists_drawn b vs
    exact hx.agree hy hevictions h

/-! ### Runs that train and adopt -/

lemma Calm.run (h : Calm env e) (call : Call) (d : Disk) :
    (call.run env (Session.start e d)).2.isCancelled = false := by
  have hcourse : ∀ {listed s}, Course env e listed s → s.isCancelled = false := by
    intro listed s hs
    rw [Bool.eq_false_iff, Ne, hs.flag]
    simp [h.before, h.meanwhile]
  have hend := run_end env call e d
  generalize call.run env (Session.start e d) = ended at hend ⊢
  cases hend with
  | kept r t listed hr hu => exact hcourse hu.toCourse
  | adopted m t hm hrel => exact hcourse hrel.toCourse
  | trained m d' t hm hrel => exact hcourse hrel.toCourse
  | late m d' r t hm hr hrel => exact hcourse hrel.toCourse

def trioRequest : Request :=
  ⟨trioSurroundings, .cached duetModel, Disk.empty⟩

def trioQuery : SimilarQuery :=
  .artists 3 [.artist, .writer] 1

/-- A training that leaves two of four tracks out. -/
def mixedRequest : Request :=
  ⟨mixedSurroundings none, .training soloTraining, Disk.empty⟩

/-- Twice an engine is given a model, is asked, and then trains. -/
def askingBetween : List Use :=
  [.request trioRequest, .ask trioRecords.catalog trioQuery, .request mixedRequest,
    .request trioRequest, .ask trioRecords.catalog trioQuery, .request mixedRequest]

def trainingFirst : List Use :=
  [.request mixedRequest, .request mixedRequest, .request trioRequest,
    .ask trioRecords.catalog trioQuery, .ask trioRecords.catalog trioQuery]

lemma make_solo : make { bareEngine.settings with iterations := 1 } [(.chars "loudness", 1)]
    [(.chars "loudness", 1.0)] 0 = .ok soloEngine := by
  have hseed : bareEngine.settings.seed = none := rfl
  have htoken : bareEngine.token = .fresh := rfl
  have hgenerator : bareEngine.generator = .ofSeed 0 := rfl
  have hevictions : bareEngine.evictions = .ofSeed 0 := rfl
  have hpublished : bareEngine.published = none := rfl
  simp [make, soloEngine, hseed, htoken, hgenerator, hevictions, hpublished]

/-- An engine that may have been through these uses. -/
structure Practised (e : Engine) : Prop where
  settings : e.settings = soloEngine.settings
  registry : e.registry = soloEngine.registry
  calm : e.cancelRequested = false

namespace Practised

variable (he : Practised e)

include he

lemma train : ∃ x, (Use.request mixedRequest).attempt? e = some x ∧ x.lesson = mixedLesson ∧
    (∃ m, x.result = .ok (some m)) ∧ Practised ((Use.request mixedRequest).next e) := by
  obtain ⟨x, hx, hlesson, hm, g, c, p, hengine⟩ :=
    attemptAt?_mixed none he.settings he.registry he.calm
  refine ⟨x, hx, hlesson, hm, ?_⟩
  obtain ⟨hnone, -⟩ | ⟨x', hx', -, hnext⟩ := (Use.request mixedRequest).generator_next e
  · cases hnone.symm.trans hx
  · obtain rfl : x = x' := Option.some.inj (hx.symm.trans hx')
    have hcalm : ((Use.request mixedRequest).next e).cancelRequested = false :=
      Calm.run ⟨he.calm, fun _ => rfl⟩ mixedRequest.call mixedRequest.disk
    refine ⟨?_, ?_, hcalm⟩ <;> rw [hnext, hengine]
    · exact he.settings
    · exact he.registry

lemma give : Practised (trioRequest.run e).2.engine ∧
    ∃ p, (trioRequest.run e).2.engine.published = some p ∧ p.model = duetModel ∧
      p.Complete trioRecords.catalog := by
  have hcalm : Calm trioSurroundings e := ⟨he.calm, fun _ => rfl⟩
  obtain ⟨c, p, hengine⟩ : ∃ c p, (trioRequest.run e).2.engine =
      { e with token := c, published := p } :=
    engine_adopt trioSurroundings duetModel (Session.start e Disk.empty)
  have hcatalog : ∀ row ∈ duetModel.positions.toList,
      ∃ t, trioSurroundings.catalog.track row.1 = .ok t := by
    have hkeys : ∀ track ∈ duetModel.positions.toList.map (·.1),
        (trioSurroundings.catalog.track track).toOption.isSome = true := by decide +kernel
    intro row hrow
    have hsome := hkeys row.1 (List.mem_map_of_mem hrow)
    cases htrack : trioSurroundings.catalog.track row.1 with
    | error f => simp [htrack, Except.toOption] at hsome
    | ok t => exact ⟨t, rfl⟩
  obtain ⟨index, hindex⟩ := ModelIndex.exists_build
    (ModelIndex.contains_of_holds ModelIndex.holds_duetPositions) hcatalog
  have hpublish := publish_calm (s := Session.start e Disk.empty) (m := duetModel) he.calm
    hcalm.meanwhile hindex
  have hadopted : (trioRequest.run e).1 = .ok .loadedFromCache := adopt_of_publish hpublish
  refine ⟨⟨hengine ▸ he.settings, hengine ▸ he.registry,
    Calm.run hcalm trioRequest.call trioRequest.disk⟩, ?_⟩
  obtain ⟨hunsettled, -⟩ | ⟨-, hrel⟩ :=
    (adopt_end (underway_start trioSurroundings e Disk.empty) duetModel trioRequest.call).of_given
  · change Unsettled (trioRequest.run e).1 at hunsettled
    rw [hadopted] at hunsettled
    exact absurd hunsettled not_unsettled_loadedFromCache
  · obtain ⟨p, hp, hm, hcomplete⟩ := hrel.published
    exact ⟨p, hp, hm, hcomplete⟩

lemma ask : Practised (e.answer trioRecords.catalog trioQuery).2 := by
  obtain ⟨g, hg⟩ := answer_eq trioRecords.catalog e trioQuery
  rw [hg]
  exact ⟨he.settings, he.registry, he.calm⟩

end Practised

/-- An engine that has the model of two tracks. -/
def HasDuet (e : Engine) : Prop :=
  ∃ p, e.published = some p ∧ p.model = duetModel ∧ p.Complete trioRecords.catalog

lemma HasDuet.ask (h : HasDuet e) : HasDuet (e.answer trioRecords.catalog trioQuery).2 := by
  obtain ⟨g, hg⟩ := answer_eq trioRecords.catalog e trioQuery
  rw [hg]
  exact h

def trioAsking : Asking where
  published := trioEngine.published.map fun p => (p.model.restored, p.index, p.median)
  factor := soloEngine.settings.factor
  hasArtist := trioRecords.catalog.hasArtist
  artist := 3
  roles := [.artist, .writer]
  maxCount := 1

lemma hasDuet_trioEngine : HasDuet trioEngine := by
  obtain ⟨p, hp, -⟩ := artistUnion_trio
  have hend := run_end trioSurroundings (.cached duetModel) bareEngine Disk.empty
  obtain ⟨-, _, hkept⟩ | ⟨-, hrel⟩ := hend.of_given
  · have hnone : trioEngine.published = none := hkept.published
    cases hp.symm.trans hnone
  · exact hrel.published

lemma Practised.asking? (he : Practised e) (h : HasDuet e) :
    asking? trioRecords.catalog e trioQuery = some trioAsking := by
  obtain ⟨p, hp, hm, hcomplete⟩ := h
  obtain ⟨p', hp', hm', hcomplete'⟩ := hasDuet_trioEngine
  have htwin := hcomplete'.twin hcomplete (by rw [hm, hm'])
  unfold Engine.asking? trioQuery trioAsking
  dsimp only
  rw [hp, hp', he.settings]
  simp [htwin.model, htwin.index, htwin.median]

lemma exists_trim_pair (x y : Int) (g : Random.Twister) :
    ∃ id ∈ [x, y], (trim 1 [x, y] g).1 = .ok [id] := by
  have hplace := Random.Twister.below_lt zero_lt_two g
  have hdrawn : (drawPlaces 1 2 g).1 = [(g.below 2).1] := rfl
  have htrim := congrArg Prod.fst (trim_eq zero_le_one [x, y] g)
  dsimp only [List.length] at htrim
  rw [htrim]
  change ∃ id ∈ [x, y], Except.ok (dropAt [x, y] (drawPlaces 1 2 g).1) = .ok [id]
  rw [hdrawn]
  generalize (g.below 2).1 = place at hplace
  obtain rfl | rfl : place = 0 ∨ place = 1 := by omega
  · exact ⟨y, by simp, rfl⟩
  · exact ⟨x, by simp, rfl⟩

/-- Two artists have been found, and one of them is left. -/
lemma Practised.answer (he : Practised e) (h : HasDuet e) :
    ∃ id ∈ [(4 : Int), 5], (e.answer trioRecords.catalog trioQuery).1 = .ok [id] := by
  obtain ⟨p, hp, hm, hcomplete⟩ := h
  obtain ⟨p', hp', hm', hcomplete'⟩ := hasDuet_trioEngine
  obtain ⟨p'', hp'', hunion⟩ := artistUnion_trio
  obtain rfl : p' = p'' := Option.some.inj (hp'.symm.trans hp'')
  have hfactor : e.settings.factor = trioEngine.settings.factor := by
    rw [he.settings]
    rfl
  have horder : inOrder [.artist, .writer] = [LinkType.artist, .writer] := by decide
  have hfound : e.artistUnion trioRecords.catalog p 3 1 (inOrder [.artist, .writer]) [] =
      .ok [4, 5] := by
    rw [horder, artistUnion_twin hfactor rfl (hcomplete'.twin hcomplete (by rw [hm, hm'])), hunion]
  obtain ⟨id, hid, htrim⟩ := exists_trim_pair 4 5 e.evictions
  refine ⟨id, hid, ?_⟩
  change (e.similarArtists trioRecords.catalog 3 [.artist, .writer] 1).1 = _
  unfold similarArtists
  rw [hp]
  dsimp only
  rw [hfound]
  exact htrim

lemma attempts_practised : ∃ x x' y y', attempts soloEngine askingBetween = [x, x'] ∧
    attempts soloEngine trainingFirst = [y, y'] ∧ ∀ z ∈ [x, x', y, y'],
      z.lesson = mixedLesson ∧ ∃ m, z.result = .ok (some m) := by
  have hsolo : Practised soloEngine := ⟨rfl, rfl, rfl⟩
  have hgive (e : Engine) : (Use.request trioRequest).attempt? e = none := rfl
  have hask (e : Engine) : (Use.ask trioRecords.catalog trioQuery).attempt? e = none := rfl
  have hgiven (e : Engine) : (Use.request trioRequest).next e = (trioRequest.run e).2.engine := rfl
  have hasked (e : Engine) : (Use.ask trioRecords.catalog trioQuery).next e =
    (e.answer trioRecords.catalog trioQuery).2 := rfl
  have hnil (e : Engine) : attempts e [] = [] := rfl
  obtain ⟨x, hx, hxlesson, hxm, hx'⟩ := hsolo.give.1.ask.train
  obtain ⟨x', hx'', hxlesson', hxm', -⟩ := hx'.give.1.ask.train
  obtain ⟨y, hy, hylesson, hym, hy'⟩ := hsolo.train
  obtain ⟨y', hy'', hylesson', hym', -⟩ := hy'.train
  refine ⟨x, x', y, y', ?_, ?_, ?_⟩
  · simp [askingBetween, hgive, hask, hgiven, hasked, hnil, hx, hx'']
  · simp [trainingFirst, hgive, hask, hnil, hy, hy'']
  · simp [*]

lemma Use.artistQueries_of_silent {q : Request} (h : ∀ k, q.env.queries k = []) (e : Engine) :
    (Use.request q).artistQueries e = [] := by
  have hnone : asked q.env (q.run e).2.progress = [] := List.flatMap_eq_nil_iff.2 fun k _ => h k.1
  unfold Use.artistQueries Engine.artistQueries
  dsimp only
  rw [hnone]
  rfl

/-- In both runs the same is asked, and each time one of two artists is dropped. -/
lemma runQueries_practised : ∃ id₁ id₂ id₃ id₄, runQueries soloEngine askingBetween =
      [(trioAsking, .ok [id₁]), (trioAsking, .ok [id₂])] ∧
    runQueries soloEngine trainingFirst =
      [(trioAsking, .ok [id₃]), (trioAsking, .ok [id₄])] ∧
    ∀ a ∈ [id₁, id₂, id₃, id₄], a ∈ [(4 : Int), 5] := by
  have hsolo : Practised soloEngine := ⟨rfl, rfl, rfl⟩
  have htrain := Use.artistQueries_of_silent (q := mixedRequest) fun _ => rfl
  have hgive := Use.artistQueries_of_silent (q := trioRequest) fun _ => rfl
  have hgiven (e : Engine) : (Use.request trioRequest).next e = (trioRequest.run e).2.engine := rfl
  have hasked (e : Engine) : (Use.ask trioRecords.catalog trioQuery).next e =
    (e.answer trioRecords.catalog trioQuery).2 := rfl
  have hnil (e : Engine) : runQueries e [] = [] := rfl
  have hask {e : Engine} (he : Practised e) (h : HasDuet e) : ∃ id ∈ [(4 : Int), 5],
      (Use.ask trioRecords.catalog trioQuery).artistQueries e = [(trioAsking, .ok [id])] := by
    obtain ⟨id, hid, hanswer⟩ := he.answer h
    exact ⟨id, hid, by simp [Use.artistQueries, artistQueries, he.asking? h, hanswer]⟩
  -- the run that asks in between
  obtain ⟨hfirst, hfirst'⟩ := hsolo.give
  obtain ⟨id₁, hid₁, hq₁⟩ := hask hfirst hfirst'
  obtain ⟨-, -, -, -, hlearned⟩ := hfirst.ask.train
  obtain ⟨hsecond, hsecond'⟩ := hlearned.give
  obtain ⟨id₂, hid₂, hq₂⟩ := hask hsecond hsecond'
  -- the run that trains first
  obtain ⟨-, -, -, -, honce⟩ := hsolo.train
  obtain ⟨-, -, -, -, htwice⟩ := honce.train
  obtain ⟨hthird, hthird'⟩ := htwice.give
  obtain ⟨id₃, hid₃, hq₃⟩ := hask hthird hthird'
  obtain ⟨id₄, hid₄, hq₄⟩ := hask hthird.ask (HasDuet.ask hthird')
  refine ⟨id₁, id₂, id₃, id₄, ?_, ?_, by simp only [List.forall_mem_cons]; exact
    ⟨hid₁, hid₂, hid₃, hid₄, nofun⟩⟩
  · simp [askingBetween, hgive, htrain, hgiven, hasked, hnil, hq₁, hq₂]
  · simp [trainingFirst, hgive, htrain, hgiven, hasked, hnil, hq₃, hq₄]

/-- Whether it is asked in between or trains first, an engine comes to the same two models and, of
two artists each time, drops the same. -/
theorem streams_independent_trio :
    make { bareEngine.settings with iterations := 1 } [(.chars "loudness", 1)]
        [(.chars "loudness", 1.0)] 0 = .ok soloEngine ∧
      (∃ m m', (attempts soloEngine askingBetween).map Attempt.result =
          [.ok (some m), .ok (some m')] ∧
        (attempts soloEngine trainingFirst).map Attempt.result = [.ok (some m), .ok (some m')]) ∧
      ∃ id₁ ∈ [(4 : Int), 5], ∃ id₂ ∈ [(4 : Int), 5],
        runQueries soloEngine askingBetween = [(trioAsking, .ok [id₁]), (trioAsking, .ok [id₂])] ∧
        runQueries soloEngine trainingFirst =
          [(trioAsking, .ok [id₁]), (trioAsking, .ok [id₂])] := by
  obtain ⟨-, htrainings, hqueries⟩ := streams_independent make_solo make_solo rfl askingBetween
    trainingFirst
  obtain ⟨x, x', y, y', hxs, hys, hall⟩ := attempts_practised
  obtain ⟨id₁, id₂, id₃, id₄, hqs, hqs', hids⟩ := runQueries_practised
  simp only [List.forall_mem_cons] at hall hids
  obtain ⟨⟨hx, m, hxm⟩, ⟨hx', m', hxm'⟩, ⟨hy, n, hym⟩, ⟨hy', n', hym'⟩, -⟩ := hall
  obtain ⟨hid₁, hid₂, -⟩ := hids
  have hends := htrainings (by simp [hxs, hys, hx, hx', hy, hy'])
  have hanswers := hqueries (by simp [hqs, hqs'])
  rw [hxs, hys] at hends
  obtain ⟨hfirst, hsecond, -⟩ := List.forall₂_cons.1 hends |>.imp_right List.forall₂_cons.1
  obtain rfl : m = n := hfirst.model_eq hxm hym
  obtain rfl : m' = n' := hsecond.model_eq hxm' hym'
  exact ⟨make_solo, ⟨m, m', by simp [hxs, hxm, hxm'], by simp [hys, hym, hym']⟩, id₁, hid₁,
    id₂, hid₂,
    hqs, hanswers ▸ hqs⟩

end SoundAtlas.Engine
