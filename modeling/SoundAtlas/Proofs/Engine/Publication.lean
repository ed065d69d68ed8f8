import SoundAtlas.Proofs.Cache.Refusal
import SoundAtlas.Proofs.Engine.Stages

/-!
What an engine has published changes as a whole, or not at all. Whichever way a load takes and
whatever happens meanwhile, it either leaves the model that was published before or ends with a new
one that is complete.
-/

namespace SoundAtlas.Engine

variable {env : Surroundings} {e : Engine} {d : Disk} {listed : Bool} {s : Session}

inductive Call where
  | load (force : Bool)
  | training (t : TrainSettings)
  | cached (m : Model)

def Call.run (env : Surroundings) (call : Call) (s : Session) : Except Fault Outcome × Session :=
  match call with
  | .load force => Engine.load env force s
  | .training t => loadFromTraining env t s
  | .cached m => loadFromCache env m s

/-- A result without a new model: the call was cancelled, found nothing to train on, or failed. -/
def Unsettled (r : Except Fault Outcome) : Prop :=
  r = .ok .cancelled ∨ r = .ok .noTrainableData ∨ ∃ f, r = .error f

lemma not_unsettled_loadedFromCache : ¬ Unsettled (.ok .loadedFromCache) := by
  rintro (h | h | ⟨f, h⟩) <;> cases h

/-- The model that a call publishes without training, if it finds one. -/
def adoptee (env : Surroundings) (call : Call) (d : Disk) : Option Model :=
  match call, env.cache with
  | .cached m, _ => some m
  | .load false, some c =>
    match (c.read d).1 with
    | .ok found => found
    | .error _ => none
  | _, _ => none

/-- The disk as a call makes it before it comes to a model: without the cache, if that is to be
removed. -/
def clearedDisk (env : Surroundings) (call : Call) (d : Disk) : Disk :=
  match call, env.cache with
  | .load true, some c => (c.invalidate d).2
  | _, _ => d

/-- A call fails though it has published a model that it has trained on the disk `d`: the report on
the training cannot be made, or the cache refuses the model, and not because of the disk. -/
inductive FailsLate (env : Surroundings) (call : Call) (d : Disk) (m : Model) :
    Except Fault Outcome → Prop where
  | unlogged (h : Unlogged env m) : FailsLate env call d m (.error .tracker)
  | unwritten {force : Bool} {c : ModelCache} {err : ModelCache.Error} (hcall : call = .load force)
    (hc : env.cache = some c) (hw : (c.write d m env.names).1.1 = .error err)
    (hr : c.Refused d m env.names err) : FailsLate env call d m (.error (.cache err))

/-- How a call ends that finds, or makes, the disk `d`, and a model to publish on it or none. -/
inductive CallEnd (env : Surroundings) (call : Call) (e : Engine) (d : Disk)
    (given : Option Model) :
    Except Fault Outcome × Session → Prop where
  | kept (r : Except Fault Outcome) (s : Session) (listed : Bool) (hr : Unsettled r)
    (h : Underway env e d listed s) : CallEnd env call e d given (r, s)
  | adopted (m : Model) (s : Session) (hm : given = some m) (h : Released env e d false m s) :
    CallEnd env call e d given (.ok .loadedFromCache, s)
  | trained (m : Model) (d' : Disk) (s : Session) (hm : given = none)
    (h : Released env e d' true m s) (hu : Undisturbed env e s) :
    CallEnd env call e d given (.ok .trained, s)
  | late (m : Model) (d' : Disk) (r : Except Fault Outcome) (s : Session) (hm : given = none)
    (hr : FailsLate env call d m r) (h : Released env e d' true m s) (hu : Undisturbed env e s) :
    CallEnd env call e d given (r, s)

variable {call : Call}

lemma CallEnd.of_given {m : Model} {ended : Except Fault Outcome × Session}
    (h : CallEnd env call e d (some m) ended) :
    (Unsettled ended.1 ∧ ∃ listed, Underway env e d listed ended.2) ∨
      (ended.1 = .ok .loadedFromCache ∧ Released env e d false m ended.2) := by
  cases h with
  | kept r s listed hr hu => exact Or.inl ⟨hr, listed, hu⟩
  | adopted m' s hm hrel =>
    obtain rfl : m = m' := Option.some.inj hm
    exact Or.inr ⟨rfl, hrel⟩
  | trained m' d' s hm => cases hm
  | late m' d' r s hm => cases hm

lemma adopt_end (h : Underway env e d false s) (m : Model) (call : Call) :
    CallEnd env call e d (some m) (adopt env m s) := by
  have hp := publish_spec h m
  unfold adopt
  split <;> rename_i heq <;> rw [heq] at hp
  · obtain ⟨-, hu⟩ | ⟨hr, -⟩ := hp
    · exact .kept _ _ _ (Or.inr (Or.inr ⟨_, rfl⟩)) hu
    · cases hr
  · obtain ⟨hr, -⟩ | ⟨-, hrel, -⟩ := hp
    · exact absurd rfl hr
    · exact .adopted m _ rfl hrel
  · obtain ⟨-, hu⟩ | ⟨hr, -⟩ := hp
    · exact .kept _ _ _ (Or.inl rfl) hu
    · cases hr

lemma loadFromTraining_end (h : Underway env e d false s) (t : TrainSettings) :
    CallEnd env call e d none (loadFromTraining env t s) := by
  have ht := train_spec h t
  unfold loadFromTraining
  split <;> rename_i heq <;> rw [heq] at ht
  · cases ht with
    | failed _ _ _ hu => exact .kept _ _ _ (Or.inr (Or.inr ⟨_, rfl⟩)) hu
    | unlogged m _ hrel hund _ hf => exact .late m d _ _ rfl (.unlogged hf) hrel hund
  · cases ht with
    | calledOff _ hu => exact .kept _ _ _ (Or.inl rfl) hu
    | noData _ hu => exact .kept _ _ _ (Or.inr (Or.inl rfl)) hu
    | released m _ hrel hund => exact .trained m d _ rfl hrel hund

lemma badName_of_not_warned {err : ModelCache.Error} (h : isWriteWarned err = false) :
    ∀ e', err = .disk e' → e' = .badName := by
  rintro e' rfl
  cases e' <;> simp [isWriteWarned] at h ⊢

lemma store_end {m : Model} (h : Released env e d true m s) (hu : Undisturbed env e s)
    (c : ModelCache) :
    ∃ d', Released env e d' true m (store env c m s).2 ∧ Undisturbed env e (store env c m s).2 ∧
      ((store env c m s).1 = .ok () ∨ ∃ err, (store env c m s).1 = .error (.cache err) ∧
        (c.write s.disk m env.names).1.1 = .error err ∧ isWriteWarned err = false) := by
  unfold store
  extract_lets written s'
  have hrel : Released env e written.1.2 true m s' :=
    ⟨⟨h.seen, h.flag⟩, rfl, h.settings, h.published⟩
  split
  · exact ⟨_, hrel, hu, Or.inl rfl⟩
  · rename_i err heq
    split
    · exact ⟨_, ⟨⟨h.seen, h.flag⟩, rfl, h.settings, h.published⟩, hu, Or.inl rfl⟩
    · rename_i hw
      exact ⟨_, hrel, hu, Or.inr ⟨err, rfl, heq, by simpa using hw⟩⟩

lemma loadByTraining_end (h : Underway env e d false s) (force : Bool) :
    CallEnd env (.load force) e d none (loadByTraining env s) := by
  unfold loadByTraining
  split
  · exact .kept _ _ _ (Or.inr (Or.inr ⟨_, rfl⟩)) h
  · rename_i t _
    have ht := train_spec h t
    split
    · rename_i heq
      rw [heq] at ht
      cases ht with
      | failed _ _ _ hu => exact .kept _ _ _ (Or.inr (Or.inr ⟨_, rfl⟩)) hu
      | unlogged m _ hrel hund _ hf => exact .late m d _ _ rfl (.unlogged hf) hrel hund
    · rename_i m s' c heq hc
      rw [heq] at ht
      obtain _ | _ | _ | ⟨_, _, hrel, hund⟩ | _ := ht
      obtain ⟨d', hrel', hund', hw⟩ := store_end hrel hund c
      split <;> rename_i hst <;> rw [hst] at hrel' hund' hw
      · obtain hw | ⟨err, herr, hwrite, hnot⟩ := hw
        · cases hw
        · cases herr
          rw [hrel.disk] at hwrite
          exact .late m d' _ _ rfl (.unwritten rfl hc hwrite
            (ModelCache.refused_of_write hwrite (badName_of_not_warned hnot))) hrel' hund'
      · exact .trained m d' _ rfl hrel' hund'
    · rename_i heq _
      rw [heq] at ht
      cases ht with
      | calledOff _ hu => exact .kept _ _ _ (Or.inl rfl) hu
      | noData _ hu => exact .kept _ _ _ (Or.inr (Or.inl rfl)) hu
      | released m _ hrel hund => exact .trained m d _ rfl hrel hund

lemma Underway.onDisk (h : Underway env e d listed s) (d' : Disk) :
    Underway env e d' listed { s with disk := d' } :=
  ⟨⟨h.seen, h.flag⟩, h.alike, rfl⟩

/-- **Every call ends with what was published before, or with a complete model.** -/
lemma run_end (env : Surroundings) (call : Call) (e : Engine) (d : Disk) :
    CallEnd env call e (clearedDisk env call d) (adoptee env call d)
      (call.run env (Session.start e d)) := by
  have h := underway_start env e d
  cases call with
  | training t => exact loadFromTraining_end h t
  | cached m => exact adopt_end h m _
  | load force =>
    unfold Call.run Engine.load clearedDisk adoptee
    cases hc : env.cache with
    | none =>
      dsimp only
      cases force <;> exact loadByTraining_end h _
    | some c =>
      cases force with
      | true =>
        have hu := h.onDisk (c.invalidate d).2
        dsimp only [Session.start] at hu ⊢
        split
        · exact .kept _ _ _ (Or.inr (Or.inr ⟨_, rfl⟩)) hu
        · exact loadByTraining_end hu _
      | false =>
        have hu := h.warn ((c.read d).2.map .cache)
        dsimp only [Session.start] at hu ⊢
        cases (c.read d).1 with
        | error err => exact .kept _ _ _ (Or.inr (Or.inr ⟨_, rfl⟩)) hu
        | ok found =>
          cases found with
          | none => exact loadByTraining_end hu _
          | some m => exact adopt_end hu m _

end SoundAtlas.Engine
