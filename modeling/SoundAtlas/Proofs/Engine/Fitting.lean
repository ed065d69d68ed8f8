import SoundAtlas.Proofs.Engine.Cancellation
import SoundAtlas.Proofs.Engine.Stages
import SoundAtlas.Proofs.Feature.Layout
import SoundAtlas.Proofs.Feature.Refitting
import SoundAtlas.Proofs.Network.Passes
import SoundAtlas.Proofs.Numeric.Stacking

/-!
The vectors of a training fit together. The samples that are collected, what they are scaled to and
the weights all have as many components as the features have values together, and so has the
network.
-/

namespace SoundAtlas

/-! ### Arrays of rows -/

lemma Tensor.ofRows_of_lengths {rows : List (List Float)} {d : ℕ} (hne : rows ≠ [])
    (h : ∀ row ∈ rows, row.length = d) :
    ∃ t, Tensor.ofRows rows = .ok t ∧ t.shape = [rows.length, d] := by
  have ht : Tensor.ofRows rows = .ok ⟨_, rows.flatten, Tensor.length_flatten_of_lengths h⟩ :=
    (Tensor.ofRows_eq_ok hne).2 ⟨d, h, rfl, rfl⟩
  exact ⟨_, ht, rfl⟩

lemma Tensor.mem_chunks {n d : ℕ} {xs : List Float} (h : n * d ≤ xs.length) :
    ∀ row ∈ Tensor.chunks d n xs, row.length = d := by
  induction n generalizing xs with
  | zero => simp [Tensor.chunks]
  | succ n ih =>
    rw [Nat.succ_mul] at h
    refine List.forall_mem_cons.2 ⟨?_, ih ?_⟩
    · rw [List.length_take]
      omega
    · rw [List.length_drop]
      omega

lemma Tensor.mem_rows {t : Tensor} {n d : ℕ} (h : t.shape = [n, d]) :
    ∀ row ∈ t.rows, row.length = d := by
  have hentries : n * d = t.entries.length := by
    rw [t.length_entries, h]
    simp
  rw [Tensor.rows, h]
  exact Tensor.mem_chunks hentries.le

lemma Tensor.exists_vector {α : Type} {t : Tensor α} {d : ℕ} (h : t.shape = [d]) :
    ∃ v, t.vector? d = some v :=
  ⟨_, dif_pos h⟩

lemma Tensor.shape_ofList {α : Type} {xs : List α} {d : ℕ} (h : xs.length = d) :
    (Tensor.ofList xs).shape = [d] :=
  congrArg (fun n => [n]) h

namespace Network

lemma exists_setWeights {n : Network} {weights : List Float} (h : weights.length = n.dimensions) :
    ∃ w, n.setWeights (.ok (Tensor.ofList weights).words) = .ok { n with weights := w } := by
  have hshape : (Tensor.ofList weights).words.shape = [n.dimensions] := Tensor.shape_ofList h
  obtain ⟨w, hw⟩ := Tensor.exists_vector hshape
  exact ⟨w, by simp only [setWeights, requireArray, Except.mapError, bind, Except.bind, hw]; rfl⟩

/-- A vector of the length that a network compares is only refused by a network that is
not trained. -/
lemma closestPosition_eq_error {n : Network} {v : List Float} {e : Error}
    (h : v.length = n.dimensions) (he : n.closestPosition (.ok (.ofList v)) = .error e) :
    e = .notTrained n.state := by
  obtain ⟨w, hw⟩ := Tensor.exists_vector (Tensor.shape_ofList h)
  simp only [closestPosition, requireTrained, checkVector, requireArray, Except.mapError, bind,
    Except.bind, hw] at he
  split at he
  · rename_i heq
    split at heq
    · cases heq
    · cases heq
      exact (Except.error.inj he).symm
  · cases he

/-- Samples of the width of a network are only refused if it cannot be trained any more, or for no
iteration. -/
lemma trainingSamples_eq_error {n : Network} {samples : Except Tensor.Error Tensor} {t : Tensor}
    {rows : ℕ} {count : ℤ} {e : Error} (ht : samples = .ok t) (hrows : 0 < rows)
    (hshape : t.shape = [rows, n.dimensions]) (h : n.trainingSamples samples count = .error e) :
    e = .alreadyUsed n.state ∨ e = .noIterations := by
  by_cases hvalid : n.state = .uninitialized ∧ 0 < count
  · obtain ⟨found, hfound⟩ :=
      exists_trainingSamples.2 ⟨hvalid.1, hvalid.2, t, rows, ht, hrows, hshape⟩
    rw [hfound] at h
    cases h
  · simp only [trainingSamples, bind, Except.bind, throw, throwThe, MonadExceptOf.throw, pure,
      Except.pure] at h
    split at h
    · exact .inl (Except.error.inj h).symm
    · rename_i hstate
      rw [if_pos (not_lt.1 fun hcount => hvalid ⟨not_not.1 hstate, hcount⟩)] at h
      exact .inr (Except.error.inj h).symm

end Network

namespace Engine

open Feature

/-- A fault of vectors, samples or weights whose lengths do not fit together. -/
def Fault.IsMisfit : Fault → Prop
  | .scaling (.samples _) | .scaling (.sampleWidth ..) | .scaling (.array _) => True
  | .network (.weights ..) | .network (.vector ..) | .network (.samples _)
  | .network (.sampleWidth ..) | .network (.array _) => True
  | _ => False

/-- A step that does not fail because something does not fit, and what holds of its result. -/
structure Fits {α : Type} (p : α → Prop) (c : Except Fault α) : Prop where
  fault : ∀ f, c = .error f → ¬ f.IsMisfit
  result : ∀ x, c = .ok x → p x

section Fits

variable {α : Type} {p : α → Prop} {c : Except Fault α} {f : Fault}

lemma Fits.ok {x : α} (h : p x) : Fits p (.ok x) where
  fault _ hf := by cases hf
  result _ hx := by cases hx; exact h

lemma Fits.error (h : ¬ f.IsMisfit) : Fits p (.error f) where
  fault _ hf := by cases hf; exact h
  result _ hx := by cases hx

lemma Fits.pass {β : Type} {q : β → Prop} (h : Fits p c) (hf : c = .error f) :
    Fits q (.error f) :=
  .error (h.fault f hf)

end Fits

variable {env : Surroundings} {names : List FeatureName} {s : Session} {d : ℕ} {r : Registry}

/-! ### Samples -/

lemma fetch_registry (names : List FeatureName) (track : Int) :
    (fetch env names track s).2.engine.registry = s.engine.registry := by
  unfold fetch Session.meet
  dsimp only
  split <;> rfl

lemma fetch_fits (names : List FeatureName) (track : Int) :
    Fits (fun _ => True) (fetch env names track s).1 := by
  unfold fetch
  dsimp only
  cases (env.source.fetch s.disk track names).result with
  | error e => exact .error id
  | ok found => exact .ok trivial

/-- Samples, unless their collection was cancelled, with so many components each. -/
def SamplesOf (d : ℕ) (samples : Option (List Sample)) : Prop :=
  ∀ found ∈ samples, ∀ x ∈ found, x.2.length = d

/-- **The samples** of known features have as many components as these have values. -/
lemma collect_fits {tracks : List Int} {samples : List Sample} (hr : s.engine.registry = r)
    (hknown : ∀ name ∈ names, r.Declares name)
    (hsamples : ∀ x ∈ samples, x.2.length = (names.map r.size).sum) :
    (collect env names tracks samples s).2.engine.registry = r ∧
      Fits (SamplesOf (names.map r.size).sum) (collect env names tracks samples s).1 := by
  induction tracks generalizing samples s with
  | nil => exact ⟨hr, .ok (by simpa [SamplesOf] using hsamples)⟩
  | cons track tracks ih =>
    have hregistry : (fetch env names track s).2.engine.registry = r :=
      (fetch_registry names track).trans hr
    have hfetched : Fits (fun _ => True) (fetch env names track s).1 := fetch_fits names track
    rw [collect]
    split
    · exact ⟨hr, .ok (by simp [SamplesOf])⟩
    · rcases hfetch : fetch env names track s with ⟨result, t⟩
      rw [hfetch] at hregistry hfetched
      dsimp only at hregistry ⊢
      rcases result with f | _ | _ | ⟨value, values⟩
      · exact ⟨hregistry, hfetched.pass rfl⟩
      · exact ih hregistry hsamples
      · exact ih hregistry hsamples
      · dsimp only
        cases hvector : inputVector t.engine.registry (value :: values) names with
        | error e => exact ⟨hregistry, .error id⟩
        | ok result =>
          cases result with
          | error m => exact ih hregistry hsamples
          | ok v =>
            rw [hregistry] at hvector
            obtain ⟨hfits, rfl⟩ := (inputVector_eq_ok hknown).1 hvector
            refine ih hregistry fun x hx => ?_
            rcases List.mem_append.1 hx with hx | hx
            · exact hsamples x hx
            · obtain rfl := List.mem_singleton.1 hx
              exact length_layout hfits

lemma collectSamples_fits (hr : s.engine.registry = r) (hknown : ∀ name ∈ names, r.Declares name) :
    (collectSamples env names s).2.engine.registry = r ∧
      Fits (SamplesOf (names.map r.size).sum) (collectSamples env names s).1 := by
  have hmeet : (s.meet env .listing).engine.registry = r := by
    unfold Session.meet
    split <;> exact hr
  unfold collectSamples
  dsimp only
  split
  · exact ⟨hmeet, .error id⟩
  · exact collect_fits hmeet hknown (by simp)

/-! ### Scaling -/

lemma scaleVectors_fits {vectors : List (List Float)} (hne : vectors ≠ [])
    (h : ∀ v ∈ vectors, v.length = d) :
    Fits (fun scaled => ∀ v ∈ scaled, v.length = d) (scaleVectors d vectors) := by
  obtain ⟨t, ht, hshape⟩ := Tensor.ofRows_of_lengths hne h
  obtain ⟨count, hcount⟩ := Nat.exists_eq_succ_of_ne_zero
    fun hzero => hne (List.length_eq_zero_iff.1 hzero)
  rw [hcount] at hshape
  unfold scaleVectors
  rw [ht]
  dsimp only
  by_cases hbad : d = 0 ∨ t.entries.any Float.isInf = true
  · have hfactorless : (Scaling.ofDimensions d).Factorless (.ok t) :=
      ⟨t, _, d, rfl, hshape, Nat.succ_pos count, rfl, hbad⟩
    rw [Scaling.fitTo_of_factorless hfactorless]
    exact .error id
  · rw [not_or, Bool.not_eq_true] at hbad
    obtain ⟨hpos, hfinite⟩ := hbad
    obtain ⟨width, rfl⟩ := Nat.exists_eq_succ_of_ne_zero hpos
    rw [Scaling.fitTo_of_finite hshape rfl hfinite]
    have hlast : [count.succ, width.succ].getLast? = some width.succ := rfl
    simp only [Scaling.scaleAll, Scaling.scaleTensor, Scaling.ofDimensions, hshape, hlast,
      Scaling.scalableRows_of_finite hshape hfinite, ne_eq, not_true_eq_false, if_false]
    refine .ok fun v hv => ?_
    obtain ⟨row, hrow, rfl⟩ := List.mem_map.1 hv
    rw [Scaling.scaleRow, List.length_zipWith, List.length_map, Scaling.columns, List.length_map,
      List.length_range, Tensor.mem_rows hshape row hrow, min_self]

/-! ### The network -/

lemma check_of_dimensions {side : ℕ} {shape : Network.Shape}
    (h : Network.Shape.check side side d = .ok shape) : shape.dimensions = d := by
  unfold Network.Shape.check at h
  split at h
  · cases h
  · split at h
    · cases h
    · cases h
      exact Int.toNat_natCast d

lemma check_fits {side : ℕ} {e : Network.Error}
    (h : Network.Shape.check side side d = .error e) : ¬ Fault.IsMisfit (.network e) := by
  unfold Network.Shape.check at h
  split at h
  · cases h
    exact id
  · split at h
    · cases h
      exact id
    · cases h

lemma makeNetwork_fits {t : TrainSettings} {side : ℕ}
    (hknown : ∀ name ∈ t.features.names, s.engine.registry.Declares name)
    (hd : d = ((orderedNames t.features.names).map s.engine.registry.size).sum) :
    Fits (fun n => n.dimensions = d) (makeNetwork env.room t side d s).1 := by
  unfold makeNetwork
  cases hshape : Network.Shape.check side side d with
  | error e => exact .error (check_fits hshape)
  | ok shape =>
    have hdimensions := check_of_dimensions hshape
    dsimp only
    cases hweights : inputWeights env.room s.engine.registry t.features with
    | error e => exact .error id
    | ok weights =>
      obtain ⟨-, -, rfl⟩ := (inputWeights_eq_ok hknown).1 hweights
      have hreplicate : ∀ name ∈ orderedNames t.features.names,
          (List.replicate (s.engine.registry.size name)
            (share s.engine.registry t.features name)).length = s.engine.registry.size name :=
        fun name _ => List.length_replicate
      have hlength := length_layout hreplicate
      rw [← hd, ← hdimensions] at hlength
      obtain ⟨w, hw⟩ := Network.exists_setWeights (n := (Network.random shape
        s.engine.settings.rate s.engine.settings.radius s.engine.generator).1) hlength
      dsimp only
      rw [hw]
      exact .ok hdimensions

lemma reportParams_fits {p : Params} : Fits (fun _ => True) (reportParams env p s).1 := by
  unfold reportParams
  split
  · exact .ok trivial
  · exact .ok trivial
  · exact .error id

lemma trainNetwork_fits {n : Network} {vectors : List (List Float)} {iterations : ℤ}
    (hne : vectors ≠ []) (h : ∀ v ∈ vectors, v.length = n.dimensions) :
    Fits (fun n' => n'.dimensions = n.dimensions) (trainNetwork env n vectors iterations s).1 := by
  obtain ⟨t, ht, hshape⟩ := Tensor.ofRows_of_lengths hne h
  have hresult (e : Network.Error) (he : (n.train (Tensor.ofRows vectors) iterations
      (trainingWatch env) s.engine.generator s).result = .error (.network e)) :
      ¬ Fault.IsMisfit (.network e) := by
    unfold Network.train at he
    split at he
    · rename_i e' hrefused
      obtain rfl : e' = e := by simpa using he
      obtain rfl | rfl := Network.trainingSamples_eq_error ht (List.length_pos_iff.2 hne) hshape
        hrefused <;> exact id
    · dsimp only [Network.Ending.result] at he
      split at he <;> cases he
      exact id
  unfold trainNetwork
  dsimp only
  split
  · rename_i e he
    exact .error (hresult e he)
  · exact .error id
  · exact .ok (congrArg Network.Shape.dimensions (Network.toShape_train _ _ _))

lemma classify_fits {n : Network} {rows : List Sample} {ps : TrackPositions}
    (h : ∀ row ∈ rows, row.2.length = n.dimensions) :
    Fits (fun _ => True) (classify n rows ps s).1 := by
  induction rows generalizing ps with
  | nil => exact .ok trivial
  | cons row rows ih =>
    obtain ⟨hrow, hrows⟩ := List.forall_mem_cons.1 h
    obtain ⟨track, v⟩ := row
    rw [classify]
    split
    · exact .ok trivial
    · split
      · rename_i e he
        obtain rfl := Network.closestPosition_eq_error hrow he
        exact .error id
      · exact ih hrows

lemma publishTrained_fits {n : Network} {positions : TrackPositions} {samples : ℕ} :
    Fits (fun _ => True) (publishTrained env n positions samples s).1 := by
  unfold publishTrained
  split
  · exact .error id
  · rename_i m _
    split
    · rename_i hpublish
      unfold publish at hpublish
      split at hpublish <;> cases hpublish
      exact .error id
    · exact .ok trivial
    · rename_i s' _
      obtain ⟨-, hreport⟩ := reportMetrics_spec env
        ⟨samples, m.network.medianNeighborDistance⟩ s'
      split <;> rename_i heq <;> rw [heq] at hreport
      · obtain hok | ⟨herror, -⟩ := hreport
        · cases hok
        · cases herror
          exact .error id
      · exact .ok trivial

/-! ### The whole training -/

lemma prepare_fits {t : TrainSettings} {side samples : ℕ}
    (hknown : ∀ name ∈ t.features.names, s.engine.registry.Declares name)
    (hd : d = ((orderedNames t.features.names).map s.engine.registry.size).sum) :
    Fits (fun n => n.dimensions = d) (prepare env t side d samples s).1 := by
  have hregistry : (if isFew samples t.perNeuron then s.warn [.fewTracks samples]
      else s).engine.registry = s.engine.registry := by
    split <;> rfl
  unfold prepare
  dsimp only
  generalize (if isFew samples t.perNeuron then s.warn [.fewTracks samples] else s) = s'
    at hregistry ⊢
  rw [← hregistry] at hknown hd
  have hmade : Fits (fun n => n.dimensions = d) (makeNetwork env.room t side d s').1 :=
    makeNetwork_fits hknown hd
  generalize makeNetwork env.room t side d s' = made at hmade ⊢
  obtain ⟨f | n, u⟩ := made
  · exact hmade.pass rfl
  · dsimp only
    generalize Params.mk side n.dimensions t.iterations t.perNeuron _ = params
    have hreported : Fits (fun _ => True) (reportParams env params u).1 := reportParams_fits
    generalize reportParams env params u = reported at hreported ⊢
    obtain ⟨f | _, v⟩ := reported
    · exact hreported.pass rfl
    · exact .ok (hmade.result n rfl)

lemma conclude_fits {n : Network} {rows : List Sample} {samples : ℕ}
    (h : ∀ row ∈ rows, row.2.length = n.dimensions) :
    Fits (fun _ => True) (conclude env n rows samples s).1 := by
  have hclassified : Fits (fun _ => True) (classify n rows ∅ s).1 := classify_fits h
  unfold conclude
  split
  · exact .ok trivial
  · generalize classify n rows ∅ s = placed at hclassified ⊢
    obtain ⟨f | _ | positions, t⟩ := placed
    · exact hclassified.pass rfl
    · exact .ok trivial
    · exact publishTrained_fits

lemma trainOn_fits {t : TrainSettings} {samples : List Sample} (hne : samples ≠ [])
    (hknown : ∀ name ∈ t.features.names, s.engine.registry.Declares name)
    (hd : d = ((orderedNames t.features.names).map s.engine.registry.size).sum)
    (h : ∀ x ∈ samples, x.2.length = d) : Fits (fun _ => True) (trainOn env t d samples s).1 := by
  have hscaled := scaleVectors_fits (by simpa using hne) (List.forall_mem_map.2 h)
  cases hvectors : scaleVectors d (samples.map (·.2)) with
  | error f =>
    rw [trainOn, hvectors]
    exact hscaled.pass hvectors
  | ok vectors =>
    have hlengths := hscaled.result vectors hvectors
    cases hside : Grid.sideFor samples.length t.perNeuron with
    | error f =>
      rw [trainOn, hvectors, hside]
      exact .error id
    | ok side =>
      have hprepared : Fits (fun n => n.dimensions = d)
          (prepare env t side d samples.length s).1 := prepare_fits hknown hd
      rw [trainOn_staged hvectors hside]
      generalize prepare env t side d samples.length s = prepared at hprepared ⊢
      obtain ⟨f | n, u⟩ := prepared
      · exact hprepared.pass rfl
      · obtain rfl := hprepared.result n rfl
        have htrained : Fits (fun n' => n'.dimensions = n.dimensions)
            (trainNetwork env n vectors t.iterations u).1 :=
          trainNetwork_fits (scaleVectors_ne_nil hvectors) hlengths
        dsimp only
        generalize trainNetwork env n vectors t.iterations u = trained at htrained ⊢
        obtain ⟨f | n', v⟩ := trained
        · exact htrained.pass rfl
        · refine conclude_fits fun row hrow => ?_
          rw [htrained.result n' rfl]
          exact hlengths row.2 (List.of_mem_zip hrow).2

/-- **A training on known features** never fails because vectors do not fit. -/
lemma train_fits {t : TrainSettings}
    (hknown : ∀ name ∈ t.features.names, s.engine.registry.Declares name) :
    Fits (fun _ => True) (train env t s).1 := by
  have hordered : ∀ name ∈ orderedNames t.features.names, s.engine.registry.Declares name :=
    fun name hname => hknown name (mem_orderedNames.1 hname)
  obtain ⟨hregistry, hcollected⟩ := @collectSamples_fits env _ s _ rfl hordered
  unfold train
  dsimp only
  rw [totalDimensions_eq hordered, orderedNames_orderedNames]
  dsimp only
  split
  · rename_i e _ heq
    exact hcollected.pass (congrArg Prod.fst heq)
  · exact .ok trivial
  · exact .ok trivial
  · rename_i samples s' hne heq
    rw [heq] at hregistry
    have hlengths := hcollected.result _ (congrArg Prod.fst heq) samples rfl
    rw [← hregistry] at hknown
    have htrained := @trainOn_fits env s' _ t samples hne hknown (by rw [hregistry]) hlengths
    split
    · rename_i e _ heq'
      exact htrained.pass (congrArg Prod.fst heq')
    · exact .ok trivial
    · exact .ok trivial

/-- **Vectors and weights have one layout.** For features that are known, a track has a vector
exactly if it has as many values of each as are declared; otherwise the first feature in order with
a wrong number is reported. In a vector each feature stands with its own values, after those before
it. The weights are there unless a feature has more values than a signed word counts, or there is no
room for all; they are as long as a vector, and each feature stands there, at the same place, with
its share as often as it has values. The order in which features, weights or values were inserted
does not matter. So a training on these features has samples of that length, and never fails because
samples or weights do not fit. -/
theorem layouts_agree (room : ℕ) (r : Registry) (s : FeatureSettings)
    (hknown : ∀ name ∈ s.names, r.Declares name) :
    let names := orderedNames s.names
    let total := (names.map r.size).sum
    Ascending names ∧ (∀ name, name ∈ names ↔ name ∈ s.names) ∧
      totalDimensions r names = .ok total ∧
      (∀ values,
        ((∃ v, inputVector r values names = .ok (.ok v)) ↔
          ∀ name ∈ names, (found values name).length = r.size name) ∧
        (∀ v, inputVector r values names = .ok (.ok v) → v.length = total ∧
          ∀ i name, names[i]? = some name →
            (v.drop (offset r names i)).take (r.size name) = found values name) ∧
        ∀ before name after, names = before ++ name :: after →
          (∀ n ∈ before, (found values n).length = r.size n) →
          (found values name).length ≠ r.size name →
          inputVector r values names =
            .ok (.error ⟨name, r.size name, (found values name).length⟩)) ∧
      ((∃ w, inputWeights room r s = .ok w) ↔
        (∀ name ∈ s.names, r.size name < 2 ^ 63) ∧ total < room) ∧
      (∀ w, inputWeights room r s = .ok w → w.length = total ∧
        (∀ i name weight, names[i]? = some name → List.lookup name s = some weight →
          (w.drop (offset r names i)).take (r.size name) =
            List.replicate (r.size name) (weight / Float.ofNat (r.size name))) ∧
        ∀ n : Network, n.dimensions = total →
          ∃ n', n.setWeights (.ok (Tensor.ofList w).words) = .ok n') ∧
      (∀ (r' : Registry) (s' : FeatureSettings) (values values' : Values),
        r.Perm r' → (r.map Prod.fst).Nodup → s.Perm s' → s.names.Nodup →
        values.Perm values' → (values.map Prod.fst).Nodup →
        orderedNames s'.names = names ∧ totalDimensions r' names = totalDimensions r names ∧
          inputVector r' values' names = inputVector r values names ∧
          inputWeights room r' s' = inputWeights room r s) ∧
      ∀ env t session, t.features = s → session.engine.registry = r →
        (∀ samples, (collectSamples env names session).1 = .ok (some samples) →
          ∀ x ∈ samples, x.2.length = total) ∧
        ∀ f, (train env t session).1 = .error f → ¬ f.IsMisfit := by
  intro names total
  have hordered : ∀ name ∈ names, r.Declares name :=
    fun name hname => hknown name (mem_orderedNames.1 hname)
  have htotal := totalDimensions_eq hordered
  rw [orderedNames_orderedNames] at htotal
  refine ⟨ascending_orderedNames _, fun _ => mem_orderedNames, htotal,
    fun values => ⟨?_, ?_, ?_⟩, ?_, ?_, ?_, ?_⟩
  · simp only [inputVector_eq_ok hordered]
    exact ⟨fun ⟨v, hfits, _⟩ => hfits, fun hfits => ⟨_, hfits, rfl⟩⟩
  · intro v hv
    obtain ⟨hfits, rfl⟩ := (inputVector_eq_ok hordered).1 hv
    exact ⟨length_layout hfits, fun i name hi => part_layout hfits hi⟩
  · intro before name after hsplit hbefore hname
    rw [hsplit] at hordered ⊢
    exact inputVector_of_misfit hordered hbefore hname
  · simp only [inputWeights_eq_ok hknown, mem_orderedNames]
    exact ⟨fun ⟨w, hcounts, hroom, _⟩ => ⟨hcounts, hroom⟩,
      fun ⟨hcounts, hroom⟩ => ⟨_, hcounts, hroom, rfl⟩⟩
  · intro w hw
    obtain ⟨-, -, rfl⟩ := (inputWeights_eq_ok hknown).1 hw
    have hfits : ∀ name ∈ names, (List.replicate (r.size name) (share r s name)).length =
        r.size name := fun name _ => List.length_replicate
    have hlength := length_layout hfits
    refine ⟨hlength, fun i name weight hi hweight => ?_, fun n hn => ?_⟩
    · rw [part_layout hfits hi, share, hweight, Option.getD_some]
    · obtain ⟨w, hw⟩ := Network.exists_setWeights (hlength.trans hn.symm)
      exact ⟨_, hw⟩
  · intro r' s' values values' hr hrnodup hs hsnodup hvalues hvnodup
    have hdimensions := dimensions_perm hr hrnodup
    refine ⟨(orderedNames_perm hs).symm, ?_, (inputVector_perm hdimensions hvalues hvnodup _).symm,
      (inputWeights_perm hdimensions hs hsnodup).symm⟩
    rw [totalDimensions, totalDimensions, hdimensions]
  · rintro env t session rfl rfl
    refine ⟨fun samples hsamples => ?_, (train_fits hknown).fault⟩
    exact (collectSamples_fits rfl hordered).2.result _ hsamples samples rfl

def pairRegistry : Registry := [(.chars "b", 2), (.chars "a", 1)]

def pairSettings : FeatureSettings := [(.chars "b", 1.0), (.chars "a", 3.0)]

def pairValues : Values := [(.chars "b", [2.0, 4.0]), (.chars "a", [8.0])]

def pairSurroundings : Surroundings :=
  { bareSurroundings with
    listed := { bareSurroundings.listed with trackIds := .ok [7] }
    source := .ofTable [(7, pairValues)] }

theorem layouts_agree_pair :
    let names := orderedNames pairSettings.names
    let session := Session.start { bareEngine with registry := pairRegistry } Disk.empty
    totalDimensions pairRegistry names = .ok 3 ∧
    (∃ v, inputVector pairRegistry pairValues names = .ok (.ok v) ∧ v.length = 3 ∧
      (v.drop 1).take 2 = [2.0, 4.0]) ∧
    inputVector pairRegistry [(.chars "a", [8.0])] names =
      .ok (.error ⟨.chars "b", 2, 0⟩) ∧
    (∃ w, inputWeights 4 pairRegistry pairSettings = .ok w ∧ w.length = 3 ∧
      (w.drop 1).take 2 = [1.0 / Float.ofNat 2, 1.0 / Float.ofNat 2]) ∧
    inputWeights 4 pairRegistry.reverse pairSettings.reverse =
      inputWeights 4 pairRegistry pairSettings ∧
    (∃ samples, (collectSamples pairSurroundings names session).1 = .ok (some samples) ∧
      samples ≠ [] ∧ ∀ x ∈ samples, x.2.length = 3) ∧
    ∀ f, (train pairSurroundings ⟨pairSettings, 0, 1.0⟩ session).1 = .error f → ¬ f.IsMisfit := by
  intro names session
  have hknown : ∀ name ∈ pairSettings.names, pairRegistry.Declares name := by
    intro name hname
    obtain rfl | rfl : name = .chars "b" ∨ name = .chars "a" := by
      simpa [pairSettings, FeatureSettings.names] using hname
    · exact ⟨2, by decide, rfl⟩
    · exact ⟨1, by decide, rfl⟩
  obtain ⟨-, -, htotal, hvector, hroom, hweights, horder, htraining⟩ :=
    layouts_agree 4 pairRegistry pairSettings hknown
  obtain ⟨hsamples, hfaults⟩ := htraining pairSurroundings ⟨pairSettings, 0, 1.0⟩ session rfl rfl
  have hvectors := hvector pairValues
  refine ⟨htotal, ?_, ?_, ?_, ?_, ?_, hfaults⟩
  · obtain ⟨v, hv⟩ := hvectors.1.2 (by decide)
    obtain ⟨hlength, hplaces⟩ := hvectors.2.1 v hv
    exact ⟨v, hv, hlength, hplaces 1 (.chars "b") rfl⟩
  · exact (hvector [(.chars "a", [8.0])]).2.2 [.chars "a"] (.chars "b") [] rfl (by decide)
      (by decide)
  · obtain ⟨w, hw⟩ := hroom.2 ⟨by decide, by decide⟩
    obtain ⟨hlength, hplaces, -⟩ := hweights w hw
    exact ⟨w, hw, hlength, hplaces 1 (.chars "b") 1.0 rfl rfl⟩
  · exact (horder _ _ pairValues pairValues (List.reverse_perm _).symm (by decide)
      (List.reverse_perm _).symm (by decide) (.refl _) (by decide)).2.2.2
  · exact ⟨[(7, [8.0, 2.0, 4.0])], rfl, nofun, hsamples _ rfl⟩

/-- A feature with so many values that a signed word cannot count them. -/
def vastRegistry : Registry := [(.chars "a", 0x8000000000000000)]

/-- A feature may be declared with more values than there can be weights, however much room there
is. -/
theorem weights_without_count :
    let s : FeatureSettings := [(.chars "a", 1.0)]
    (∀ name ∈ s.names, vastRegistry.Declares name) ∧
      totalDimensions vastRegistry (orderedNames s.names) = .ok 0x8000000000000000 ∧
      ∀ room, inputWeights room vastRegistry s = .error .noCount := by
  have hfinite : (Float.ofInt 0x8000000000000000).isInf = false := by decide +kernel
  have hshare : Number.divideByInt 1.0 0x8000000000000000 =
      .ok (1.0 / Float.ofInt 0x8000000000000000) := by
    rw [Number.divideByInt, Number.floatOfInt?, hfinite]
    rfl
  have hshared (room : ℕ) :
      sharedWeight room vastRegistry [(.chars "a", 1.0)] (.chars "a") = .error .noCount := by
    have hdeclared : vastRegistry.dimensions (.chars "a") = .ok 0x8000000000000000 := rfl
    simp only [sharedWeight, hdeclared, List.lookup_cons_self, Option.getD_some, bind, Except.bind,
      hshare, Except.mapError]
    rfl
  refine ⟨?_, rfl, fun room => ?_⟩
  · intro name hname
    obtain rfl : name = .chars "a" := by simpa [FeatureSettings.names] using hname
    exact ⟨0x8000000000000000, by decide, rfl⟩
  · change ([(.chars "a" : FeatureName)].mapM
      (sharedWeight room vastRegistry [(.chars "a", 1.0)]) >>= _) = _
    rw [List.mapM_cons, hshared]
    rfl

end Engine

end SoundAtlas
