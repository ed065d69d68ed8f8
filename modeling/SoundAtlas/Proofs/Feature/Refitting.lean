import Mathlib.Tactic.Lemma
import SoundAtlas.Feature.Scaling

/-!
Fits that fail. Samples of a wrong shape leave a scaling as it was. Samples of the right shape that
have no factors leave it without any, even if it had some: it then counts as fitted and scales
nothing until it is fitted again.
-/

namespace SoundAtlas.Feature.Scaling

/-! ### What can be told of a scaling -/

inductive Request where
  | isFitted
  | scale (sample : Except Tensor.Error Tensor)
  | scaleAll (samples : Except Tensor.Error Tensor)
  | fitTo (samples : Except Tensor.Error Tensor)

inductive Reply where
  | isFitted (yes : Bool)
  | scaled (row : Except Error (List Float))
  | scaledAll (rows : Except Error (List (List Float)))
  | fitted (result : Except Error Unit)

/-- The answer to a request, and what the scaling is afterwards. Only a fit changes it. -/
def serve (s : Scaling) : Request → Reply × Scaling
  | .isFitted => (.isFitted s.isFitted, s)
  | .scale sample => (.scaled (s.scale sample), s)
  | .scaleAll samples => (.scaledAll (s.scaleAll samples), s)
  | .fitTo samples => (.fitted (s.fitTo samples).1, (s.fitTo samples).2)

def replies : Scaling → List Request → List Reply
  | _, [] => []
  | s, r :: rs => (s.serve r).1 :: replies (s.serve r).2 rs

/-- Nothing that may be asked, now or later, tells one scaling from another. -/
def Indistinct (s s' : Scaling) : Prop :=
  ∀ requests, s.replies requests = s'.replies requests

/-! ### Samples without factors -/

/-- Samples of a scaling's shape, at least one, that have no factors: they have no components, or
one of their values is infinite. -/
def Factorless (s : Scaling) (samples : Except Tensor.Error Tensor) : Prop :=
  ∃ t count width, samples = .ok t ∧ t.shape = [count, width] ∧ 0 < count ∧
    (width : Int) = s.dimensions ∧ (width = 0 ∨ t.entries.any Float.isInf = true)

variable {s : Scaling} {samples : Except Tensor.Error Tensor} {t : Tensor} {count width : Nat}
  {factors : List Factor} {e : Error}

lemma scalableRows_eq_error (hshape : t.shape = [count, width]) (hcount : count ≠ 0) :
    scalableRows t = .error e ↔
      e = .unscalable ∧ (width = 0 ∨ t.entries.any Float.isInf = true) := by
  have hsame : Except.error (α := List (List Float)) .unscalable = .error e ↔ e = .unscalable := by
    rw [Except.error.injEq, eq_comm]
  obtain ⟨count, rfl⟩ := Nat.exists_eq_succ_of_ne_zero hcount
  unfold scalableRows
  rw [hshape]
  rcases width with _ | width
  · simp [hsame]
  · cases hinf : t.entries.any Float.isInf <;> simp [hsame]

lemma scalableRows_of_finite (hshape : t.shape = [count + 1, width + 1])
    (hfinite : t.entries.any Float.isInf = false) : scalableRows t = .ok t.rows := by
  unfold scalableRows
  rw [hshape]
  simp [hfinite]

lemma fitTo_of_finite (hshape : t.shape = [count + 1, width + 1])
    (hwidth : ((width + 1 : Nat) : Int) = s.dimensions)
    (hfinite : t.entries.any Float.isInf = false) :
    s.fitTo (.ok t) =
      (.ok (), { s with fit := .fitted ((columns (width + 1) t.rows).map factorOf) }) := by
  unfold fitTo
  dsimp only
  rw [scalableRows_of_finite hshape hfinite, hshape]
  simp [hwidth]

lemma fitTo_of_factorless (h : s.Factorless samples) :
    s.fitTo samples = (.error .unscalable, { s with fit := .failed }) := by
  obtain ⟨t, count, width, rfl, hshape, hpos, hwidth, hbad⟩ := h
  obtain ⟨count, rfl⟩ := Nat.exists_eq_succ_of_ne_zero (Nat.ne_of_gt hpos)
  unfold fitTo
  dsimp only
  rw [(scalableRows_eq_error hshape (Nat.succ_ne_zero count)).2 ⟨rfl, hbad⟩, hshape]
  simp [hwidth]

lemma fitTo_of_refused (hf : ¬ s.Factorless samples) (h : (s.fitTo samples).1 = .error e) :
    (s.fitTo samples).2 = s := by
  cases samples with
  | error err => rfl
  | ok t =>
    unfold fitTo at h ⊢
    dsimp only at h ⊢
    split at h
    · rfl
    · rename_i count width hcount hshape
      by_cases hwidth : (width : Int) = s.dimensions
      · -- the shape is right, so it is the values that have been refused
        refine absurd ?_ hf
        rw [if_neg fun hne => hne hwidth] at h
        cases hrows : scalableRows t with
        | ok rows =>
          rw [hrows] at h
          cases h
        | error err =>
          exact ⟨t, count, width, rfl, hshape, Nat.pos_of_ne_zero hcount, hwidth,
            ((scalableRows_eq_error hshape hcount).1 hrows).2⟩
      · rw [if_pos hwidth]
    · rfl

/-- A scaling that counts as fitted, and scales nothing. -/
structure Barren (s : Scaling) : Prop where
  isFitted : s.isFitted = true
  scale : ∀ sample, ∃ e, s.scale sample = .error e
  scaleAll : ∀ samples, ∃ e, s.scaleAll samples = .error e

lemma scaleAll_failed (hs : s.fit = .failed) (samples : Except Tensor.Error Tensor) :
    ∃ e, s.scaleAll samples = .error e := by
  unfold scaleAll scaleTensor
  rw [hs]
  cases samples with
  | error err => exact ⟨_, rfl⟩
  | ok t =>
    dsimp only
    split
    · exact ⟨_, rfl⟩
    · split <;> exact ⟨_, rfl⟩

lemma barren_of_failed (hs : s.fit = .failed) : s.Barren := by
  refine ⟨by rw [Scaling.isFitted, hs], fun sample => ?_, scaleAll_failed hs⟩
  unfold scale
  cases sample with
  | error err => exact ⟨_, rfl⟩
  | ok t =>
    dsimp only
    split
    · exact ⟨_, rfl⟩
    · rename_i row _
      obtain ⟨err, herr⟩ := scaleAll_failed hs (.ok row)
      exact ⟨err, by rw [herr]; rfl⟩

lemma scaleAll_factorless (hs : s.fit = .fitted factors) (h : s.Factorless samples) :
    s.scaleAll samples = .error .unscalable ∧
      ({ s with fit := .failed } : Scaling).scaleAll samples = .error .noFactors := by
  obtain ⟨t, count, width, rfl, hshape, hpos, hwidth, hbad⟩ := h
  have hrows : scalableRows t = .error .unscalable :=
    (scalableRows_eq_error hshape (by omega)).2 ⟨rfl, hbad⟩
  have hlast : t.shape.getLast? = some width := by rw [hshape]; rfl
  constructor <;> simp [scaleAll, scaleTensor, hs, hlast, hwidth, hrows, Except.map]

/-- **A failed fit cannot be told afterwards** from the scaling, be it without a fit so far or with
factors, unless the samples had the right shape and no factors. Those leave a scaling that counts as
fitted and scales nothing. -/
theorem indistinct_of_failed_fit_iff (hs : s.fit ≠ .failed) (h : (s.fitTo samples).1 = .error e) :
    ((s.fitTo samples).2.Indistinct s ↔ ¬ s.Factorless samples) ∧
      (s.Factorless samples → (s.fitTo samples).2.Barren) := by
  by_cases hf : s.Factorless samples
  case neg =>
    rw [fitTo_of_refused hf h]
    exact ⟨⟨fun _ => hf, fun _ _ => rfl⟩, fun hf' => absurd hf' hf⟩
  case pos =>
    rw [fitTo_of_factorless hf]
    refine ⟨⟨fun hall => ?_, absurd hf⟩, fun _ => barren_of_failed rfl⟩
    cases hfit : s.fit with
    | failed => exact absurd hfit hs
    | unfitted =>
      have htold := hall [.isFitted]
      simp [replies, serve, isFitted, hfit] at htold
    | fitted factors =>
      obtain ⟨hwith, hwithout⟩ := scaleAll_factorless hfit hf
      have htold := hall [.scaleAll samples]
      simp [replies, serve, hwith, hwithout] at htold

/-! ### A single component -/

def pairOfSamples : Tensor := ⟨[2, 1], [0.0, 2.0], rfl⟩

def infiniteSample : Tensor := ⟨[1, 1], [1.0 / 0.0], rfl⟩

def fittedToPair : Scaling := ((ofDimensions 1).fitTo (.ok pairOfSamples)).2

lemma fittedToPair_eq :
    fittedToPair = ⟨1, .fitted ((columns 1 pairOfSamples.rows).map factorOf)⟩ := by
  have hshape : pairOfSamples.shape = [1 + 1, 0 + 1] := rfl
  have hfinite : pairOfSamples.entries.any Float.isInf = false := by decide +kernel
  unfold fittedToPair
  rw [fitTo_of_finite hshape rfl hfinite]
  rfl

lemma not_failed_fittedToPair : fittedToPair.fit ≠ .failed := by
  rw [fittedToPair_eq]
  exact Fit.noConfusion

lemma factorless_infiniteSample : fittedToPair.Factorless (.ok infiniteSample) := by
  have hinf : infiniteSample.entries.any Float.isInf = true := by decide +kernel
  rw [fittedToPair_eq]
  exact ⟨_, 1, 1, rfl, rfl, by omega, rfl, .inr hinf⟩

theorem indistinct_of_failed_fit_pair :
    fittedToPair.fit ≠ .failed ∧
      (fittedToPair.fitTo (.ok (.ofList [1.0]))).1 = .error (.samples [1]) ∧
      (fittedToPair.fitTo (.ok (.ofList [1.0]))).2.Indistinct fittedToPair := by
  have hrefused : (fittedToPair.fitTo (.ok (.ofList [1.0]))).1 = .error (.samples [1]) := rfl
  refine ⟨not_failed_fittedToPair, hrefused, ?_⟩
  refine (indistinct_of_failed_fit_iff not_failed_fittedToPair hrefused).1.2 ?_
  rintro ⟨t, count, width, ht, hshape, -⟩
  cases ht
  cases hshape

/-- The two samples give factors, an infinite one takes them away, and then nothing is scaled. -/
theorem factors_lost_pair :
    fittedToPair.fit ≠ .failed ∧
      (fittedToPair.fitTo (.ok infiniteSample)).1 = .error .unscalable ∧
      (∃ row, fittedToPair.scale (.ok (.ofList [1.0])) = .ok row) ∧
      (fittedToPair.fitTo (.ok infiniteSample)).2.scale (.ok (.ofList [1.0])) =
        .error .noFactors := by
  have hfinite : ([1.0] : List Float).any Float.isInf = false := by decide +kernel
  have hshape : Tensor.shape ⟨[1, 1], [1.0], rfl⟩ = [0 + 1, 0 + 1] := rfl
  have hrows : scalableRows ⟨[1, 1], [1.0], rfl⟩ = .ok [[1.0]] :=
    scalableRows_of_finite hshape hfinite
  refine ⟨not_failed_fittedToPair, ?_, ?_, ?_⟩
  · rw [fitTo_of_factorless factorless_infiniteSample]
  · rw [fittedToPair_eq]
    simp [scale, scaleAll, scaleTensor, Tensor.ofEntries, Tensor.ofList, hrows, Except.map]
  · rw [fitTo_of_factorless factorless_infiniteSample, fittedToPair_eq]
    simp [scale, scaleAll, scaleTensor, Tensor.ofEntries, Tensor.ofList, Except.map]

end SoundAtlas.Feature.Scaling
