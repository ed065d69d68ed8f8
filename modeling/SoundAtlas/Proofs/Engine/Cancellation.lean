import SoundAtlas.Proofs.Engine.Publication

/-!
Cancelled loading. Once loading has been cancelled no call trains, and none publishes a model,
except one without tracks: whether loading has been cancelled is only asked before a track, so
nobody asks then.
-/

namespace SoundAtlas.Engine

variable {env : Surroundings} {e : Engine} {d : Disk} {s : Session} {m : Model}

lemma publish_of_no_tracks (hm : m.positions.toList = []) (env : Surroundings) (s : Session) :
    ∃ p, publish env m s =
      (.ok true, { s with engine := { s.engine with published := some p } }) ∧ p.model = m := by
  refine ⟨⟨m, .empty m.network.grid.width m.network.grid.height,
    m.network.medianNeighborDistance⟩, ?_, rfl⟩
  unfold publish ModelIndex.build
  rw [hm]
  rfl

lemma publish_of_cancelled (hs : s.isCancelled = true) (hm : m.positions.toList ≠ []) :
    publish env m s = (.ok false, s) := by
  unfold publish ModelIndex.build
  cases hrows : m.positions.toList with
  | nil => exact absurd hrows hm
  | cons row rows =>
    rw [ModelIndex.addTracks_cons, if_pos (by simpa [buildWatch] using hs)]
    rfl

lemma adopt_of_no_tracks (hm : m.positions.toList = []) (env : Surroundings) (s : Session) :
    ∃ p, adopt env m s =
      (.ok .loadedFromCache, { s with engine := { s.engine with published := some p } }) ∧
        p.model = m := by
  obtain ⟨p, hp, hpm⟩ := publish_of_no_tracks hm env s
  refine ⟨p, ?_, hpm⟩
  unfold adopt
  rw [hp]

lemma adopt_of_cancelled (hs : s.isCancelled = true) (hm : m.positions.toList ≠ []) :
    adopt env m s = (.ok .cancelled, s) := by
  unfold adopt
  rw [publish_of_cancelled hs hm]

/-- A call that finds a model to publish adopts it, with the engine and the disk as they are. -/
lemma run_of_adoptee {call : Call} (h : adoptee env call d = some m) :
    clearedDisk env call d = d ∧ ∃ s : Session, s.engine = e ∧ s.disk = d ∧
      call.run env (Session.start e d) = adopt env m s := by
  unfold adoptee at h
  unfold clearedDisk
  cases call with
  | training t => cases h
  | cached m' =>
    cases h
    exact ⟨rfl, Session.start e d, rfl, rfl, rfl⟩
  | load force =>
    cases hc : env.cache with
    | none =>
      rw [hc] at h
      cases force <;> cases h
    | some c =>
      rw [hc] at h
      cases force with
      | true => exact absurd h (by simp)
      | false =>
        refine ⟨rfl, (Session.start e d).warn ((c.read d).2.map .cache), rfl, rfl, ?_⟩
        unfold Call.run load
        rw [hc]
        dsimp only at h ⊢
        split at h
        · rename_i found hread
          have hstart : (Session.start e d).disk = d := rfl
          rw [hstart, hread, h]
        · cases h

/-! ### Call after call -/

/-- A call with all that surrounds it, and the disk as it finds it. -/
structure Request where
  env : Surroundings
  call : Call
  disk : Disk

def Request.run (q : Request) (e : Engine) : Except Fault Outcome × Session :=
  q.call.run q.env (Session.start e q.disk)

def runAll : Engine → List Request → List (Except Fault Outcome × Session)
  | _, [] => []
  | e, q :: qs => q.run e :: runAll (q.run e).2.engine qs

/-- A call that finds a model without tracks to publish. -/
def Request.FindsNoTracks (q : Request) : Prop :=
  ∃ m, adoptee q.env q.call q.disk = some m ∧ m.positions.toList = []

/-- **One call after loading has been cancelled.** Loading stays cancelled and no model is written;
a new model is published if the call finds one without tracks, and only then. -/
lemma run_of_cancelled (he : e.cancelRequested = true) (q : Request) :
    (q.run e).2.engine.cancelRequested = true ∧
      (q.run e).2.disk = clearedDisk q.env q.call q.disk ∧
      (Unsettled (q.run e).1 ∧ (q.run e).2.engine.published = e.published ↔
        ¬ q.FindsNoTracks) := by
  have hstart := underway_start q.env e q.disk
  rcases hm : adoptee q.env q.call q.disk with _ | m
  · have hnot : ¬ q.FindsNoTracks := by
      rintro ⟨m, hm', -⟩
      rw [hm] at hm'
      cases hm'
    have hend := run_end q.env q.call e q.disk
    rw [hm] at hend
    unfold Request.run
    generalize q.call.run q.env (Session.start e q.disk) = ended at hend ⊢
    cases hend with
    | kept r s listed hr hu =>
      exact ⟨hu.flag.2 (Or.inl he), hu.disk, iff_of_true ⟨hr, hu.published⟩ hnot⟩
    | adopted m s hm => cases hm
    | trained m d' s _ _ hund =>
      rw [hund.1] at he
      cases he
    | late m d' r s _ _ _ hund =>
      rw [hund.1] at he
      cases he
  · obtain ⟨hcleared, s, hs, hdisk, hrun⟩ := run_of_adoptee (e := e) hm
    rw [Request.run, hrun, hcleared]
    by_cases hempty : m.positions.toList = []
    · obtain ⟨p, hp, -⟩ := adopt_of_no_tracks hempty q.env s
      rw [hp]
      exact ⟨hs ▸ he, hdisk, iff_of_false (fun h => not_unsettled_loadedFromCache h.1)
        (not_not.2 ⟨m, hm, hempty⟩)⟩
    · have hcancelled : s.isCancelled = true := by rw [Session.isCancelled, hs, he]
      rw [adopt_of_cancelled hcancelled hempty]
      refine ⟨hcancelled, hdisk, iff_of_true ⟨Or.inl rfl, by rw [hs]⟩ ?_⟩
      rintro ⟨m', hm', hempty'⟩
      rw [hm] at hm'
      cases hm'
      exact hempty hempty'

/-- **Cancellation is final, but for models without tracks.** Once loading has been cancelled no
call writes a model to the disk; and every call, of any number, leaves what is published, if and
only if none of them finds a model without tracks to publish. -/
theorem cancelled_for_good_iff (e : Engine) (qs : List Request) :
    (∀ p ∈ qs.zip (runAll e.cancel qs), p.2.2.disk = clearedDisk p.1.env p.1.call p.1.disk) ∧
      ((∀ ended ∈ runAll e.cancel qs,
          Unsettled ended.1 ∧ ended.2.engine.published = e.published) ↔
        ∀ q ∈ qs, ¬ q.FindsNoTracks) := by
  suffices key : ∀ e' : Engine, e'.cancelRequested = true →
      (∀ p ∈ qs.zip (runAll e' qs), p.2.2.disk = clearedDisk p.1.env p.1.call p.1.disk) ∧
        ((∀ ended ∈ runAll e' qs, Unsettled ended.1 ∧
            ended.2.engine.published = e'.published) ↔ ∀ q ∈ qs, ¬ q.FindsNoTracks) from
    key e.cancel rfl
  induction qs with
  | nil => intro e' _; simp [runAll]
  | cons q qs ih =>
    intro e' he
    obtain ⟨hflag, hdisk, hone⟩ := run_of_cancelled he q
    obtain ⟨hdisks, hall⟩ := ih _ hflag
    rw [runAll, List.zip_cons_cons, List.forall_mem_cons, List.forall_mem_cons,
      List.forall_mem_cons, hone]
    refine ⟨⟨hdisk, hdisks⟩, and_congr_right fun hq => ?_⟩
    rw [← hall, (hone.2 hq).2]

/-- A catalog of nothing, and nobody who does anything meanwhile. -/
def bareSurroundings : Surroundings :=
  .quiet .standard
    { trackIds := .ok []
      release := fun _ => .ok none
      links := fun _ => .ok []
      list? := fun _ => none
      hasTrack := fun _ => false
      hasRelease := fun _ => false
      hasArtist := fun _ => false }
    ⟨fun _ _ _ => ⟨.ok none, []⟩⟩ none ⟨"", "", "", ""⟩

def bareEngine : Engine where
  settings := .standard ⟨"", []⟩
  registry := []
  defaults := .standard
  token := .fresh
  generator := .ofSeed 0
  evictions := .ofSeed 0
  published := none

def tracklessModel : Model where
  network :=
    { grid := ⟨2, 1⟩
      dimensions := 1
      width_pos := Nat.succ_pos 1
      height_pos := Nat.succ_pos 0
      dimensions_pos := Nat.succ_pos 0
      references := .replicate _ (.replicate _ (Float.toBits 0.0))
      weights := .replicate _ (Float.toBits 1.0)
      state := .trained
      initialRate := Network.defaultRate
      finalRadius := Network.defaultRadius }
  positions := ∅
  trained := rfl

/-- A model without tracks that is given after loading has been cancelled is published. -/
theorem published_trackless :
    let q : Request := ⟨bareSurroundings, .cached tracklessModel, Disk.empty⟩
    (q.run bareEngine.cancel).1 = .ok .loadedFromCache ∧
      (q.run bareEngine.cancel).2.engine.published ≠ bareEngine.published := by
  intro q
  obtain ⟨p, hp, -⟩ := adopt_of_no_tracks (m := tracklessModel) rfl bareSurroundings
    (Session.start bareEngine.cancel Disk.empty)
  have hrun : q.run bareEngine.cancel = adopt bareSurroundings tracklessModel
      (Session.start bareEngine.cancel Disk.empty) := rfl
  rw [hrun, hp]
  exact ⟨rfl, by simp [bareEngine]⟩

end SoundAtlas.Engine
