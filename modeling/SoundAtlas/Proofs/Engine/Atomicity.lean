import SoundAtlas.Proofs.Engine.Lessons

/-!
Publication is atomic. What has been published is replaced as a whole or stays as it is, and whoever
asks meanwhile is answered by what there was before. But a load is not over when it has published
what it has trained: it reports on the training, and writes the model to its cache. So it can still
fail, and the new model stays.
-/

namespace SoundAtlas.Engine

/-- **Publication is atomic.** A call that was cancelled, found nothing to train on or failed leaves
what was published before; a call that says that there is a new model has published one that is
complete. The failures that come after that are of a report on the training that cannot be made, and
of a cache that refuses the model; then the new one has been published, and is complete as well. A
call that has trained has not been cancelled up to the last look at that, and all queries made
meanwhile were answered by what was published before. -/
theorem run_publishes_atomically (env : Surroundings) (call : Call) (e : Engine) (d : Disk) :
    let r := (call.run env (Session.start e d)).1
    let t := (call.run env (Session.start e d)).2
    ((Unsettled r ∧ t.engine.published = e.published) ∨
        ∃ p, t.engine.published = some p ∧ p.Complete env.catalog ∧
          ((adoptee env call d = some p.model ∧ r = .ok .loadedFromCache) ∨
            (adoptee env call d = none ∧ Undisturbed env e t ∧
              (r = .ok .trained ∨ FailsLate env call (clearedDisk env call d) p.model r)))) ∧
      t.seen = (replies e (asked env t.progress)).1 := by
  have h := run_end env call e d
  generalize call.run env (Session.start e d) = ended at h ⊢
  dsimp only
  cases h with
  | kept r s listed hr hu => exact ⟨Or.inl ⟨hr, hu.published⟩, hu.seen⟩
  | adopted m s hm hrel =>
    obtain ⟨p, hp, rfl, hcomplete⟩ := hrel.published
    exact ⟨Or.inr ⟨p, hp, hcomplete, Or.inl ⟨hm, rfl⟩⟩, hrel.seen⟩
  | trained m d' s hm hrel hund =>
    obtain ⟨p, hp, -, hcomplete⟩ := hrel.published
    exact ⟨Or.inr ⟨p, hp, hcomplete, Or.inr ⟨hm, hund, Or.inl rfl⟩⟩, hrel.seen⟩
  | late m d' r s hm hr hrel hund =>
    obtain ⟨p, hp, rfl, hcomplete⟩ := hrel.published
    exact ⟨Or.inr ⟨p, hp, hcomplete, Or.inr ⟨hm, hund, Or.inr hr⟩⟩, hrel.seen⟩

def namelessCache : ModelCache :=
  ⟨⟨"", ["a\x00b"]⟩, .standard⟩

/-- A load with this cache trains and publishes its model, and fails when that is to be written. -/
theorem publishes_and_fails :
    let ended := (Call.load true).run (mixedSurroundings (some namelessCache))
      (Session.start soloEngine Disk.empty)
    ended.1 = .error (.cache (.disk .badName)) ∧ soloEngine.isLoaded = false ∧
      ended.2.engine.isLoaded = true := by
  obtain ⟨m, s, htrain, hmodel⟩ := train_mixed (some namelessCache) (e := soloEngine) rfl rfl rfl
  have hsettings : TrainSettings.ofSettings (Session.start soloEngine Disk.empty).engine.settings
      (Session.start soloEngine Disk.empty).engine.defaults = .ok soloTraining := rfl
  have hcache : (mixedSurroundings (some namelessCache)).cache = some namelessCache := rfl
  -- there is no cache to be removed
  have hrun : (Call.load true).run (mixedSurroundings (some namelessCache))
      (Session.start soloEngine Disk.empty) = loadByTraining
        (mixedSurroundings (some namelessCache)) (Session.start soloEngine Disk.empty) := rfl
  have hrefused : (store (mixedSurroundings (some namelessCache)) namelessCache m s).1 =
      .error (.cache (.disk .badName)) := rfl
  have hengine := engine_store (mixedSurroundings (some namelessCache)) namelessCache m s
  have hloaded : s.engine.isLoaded = true := by
    rw [Engine.isLoaded, ← Option.isSome_map, ← Engine.model?, hmodel]
    rfl
  intro ended
  have hended : ended = _ := hrun
  unfold loadByTraining at hended
  rw [hsettings] at hended
  dsimp only at hended
  rw [htrain, hcache] at hended
  dsimp only at hended
  generalize store (mixedSurroundings (some namelessCache)) namelessCache m s = stored
    at hrefused hengine hended
  obtain ⟨r, t⟩ := stored
  obtain rfl : r = .error (.cache (.disk .badName)) := hrefused
  rw [hended]
  exact ⟨rfl, rfl, hengine ▸ hloaded⟩

end SoundAtlas.Engine
