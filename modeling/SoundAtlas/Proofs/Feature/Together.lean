import Mathlib
import SoundAtlas.Proofs.Chains
import SoundAtlas.Proofs.Feature.Refitting
import SoundAtlas.Proofs.Numeric.Stacking

/-!
Samples are scaled together as each of them is scaled alone: all of them are, or one at least is
refused in both ways, and nothing that stands beside a sample changes what comes of it. This holds
in every state of a scaling, and for rows of floats as for lists of values from which floats have
yet to be read.
-/

namespace SoundAtlas.Feature.Scaling

variable {s : Scaling} {samples : List (List Float)} {x row : List Float} {t : Tensor}
  {rows : List (List Float)}

/-! ### Rows of floats -/

/-- A scaling with factors takes a sample: it has the right number of components, and
no infinity. -/
structure Takes (s : Scaling) (factors : List Factor) (x : List Float) : Prop where
  fit : s.fit = .fitted factors
  length : (x.length : ℤ) = s.dimensions
  ne_nil : x ≠ []
  finite : x.any Float.isInf = false

lemma scalableRows_eq_ok {n w : ℕ} (hn : n ≠ 0) (hshape : t.shape = [n, w]) :
    scalableRows t = .ok rows ↔ w ≠ 0 ∧ t.entries.any Float.isInf = false ∧ rows = t.rows := by
  by_cases hbad : w = 0 ∨ t.entries.any Float.isInf = true
  · rw [(scalableRows_eq_error hshape hn).2 ⟨rfl, hbad⟩]
    simp only [reduceCtorEq, false_iff]
    rintro ⟨hw, hfinite, -⟩
    simp [hw, hfinite] at hbad
  · obtain ⟨hw, hfinite⟩ := not_or.1 hbad
    obtain ⟨w, rfl⟩ := Nat.exists_eq_succ_of_ne_zero hw
    obtain ⟨n, rfl⟩ := Nat.exists_eq_succ_of_ne_zero hn
    rw [Bool.not_eq_true] at hfinite
    rw [scalableRows_of_finite hshape hfinite, Except.ok.injEq, eq_comm]
    simp [hfinite]

lemma scaleAll_matrix_eq_ok {n w : ℕ} (hn : n ≠ 0) (hshape : t.shape = [n, w]) :
    s.scaleAll (.ok t) = .ok rows ↔ ∃ factors, s.fit = .fitted factors ∧ (w : ℤ) = s.dimensions ∧
      w ≠ 0 ∧ t.entries.any Float.isInf = false ∧ rows = t.rows.map (scaleRow factors) := by
  have hlast : t.shape.getLast? = some w := by rw [hshape]; rfl
  cases hfit : s.fit with
  | unfitted => simp [scaleAll, hfit]
  | failed =>
    obtain ⟨e, he⟩ := scaleAll_failed hfit (.ok t)
    simp [he]
  | fitted factors =>
    have htensor : s.scaleAll (.ok t) = s.scaleTensor t := by
      unfold scaleAll
      rw [hfit]
    simp only [htensor, scaleTensor, hlast, hfit, Fit.fitted.injEq, exists_eq_left', ne_eq, ite_not]
    split
    · simp only [map_eq_ok, scalableRows_eq_ok hn hshape]
      constructor
      · rintro ⟨_, ⟨hw, hfinite, rfl⟩, rfl⟩
        exact ⟨‹_›, hw, hfinite, rfl⟩
      · rintro ⟨-, hw, hfinite, rfl⟩
        exact ⟨_, ⟨hw, hfinite, rfl⟩, rfl⟩
    · rename_i hwidth
      simp [hwidth]

lemma any_flatten_eq_false {p : Float → Bool} :
    samples.flatten.any p = false ↔ ∀ x ∈ samples, x.any p = false := by
  simp [List.any_eq_false]

lemma scaleAll_error_ne (e : Tensor.Error) : s.scaleAll (.error e) ≠ .ok rows := by
  unfold scaleAll
  cases s.fit <;> exact nofun

/-- **Samples together** are scaled if a scaling with factors takes each of them. -/
lemma scaleAll_ofRows (hne : samples ≠ []) : s.scaleAll (Tensor.ofRows samples) = .ok rows ↔
    ∃ factors, (∀ x ∈ samples, s.Takes factors x) ∧ rows = samples.map (scaleRow factors) := by
  have hcount : samples.length ≠ 0 := mt List.length_eq_zero_iff.1 hne
  constructor
  · intro h
    cases ht : Tensor.ofRows samples with
    | error e => exact absurd (ht ▸ h) (scaleAll_error_ne e)
    | ok t =>
      rw [ht] at h
      obtain ⟨w, hlengths, hshape, hentries⟩ := (Tensor.ofRows_eq_ok hne).1 ht
      obtain ⟨factors, hfit, hwidth, hw, hfinite, rfl⟩ := (scaleAll_matrix_eq_ok hcount hshape).1 h
      rw [hentries, any_flatten_eq_false] at hfinite
      rw [Tensor.rows_of_ofRows hne ht]
      refine ⟨factors, fun x hx => ⟨hfit, ?_, ?_, hfinite x hx⟩, rfl⟩
      · rw [hlengths x hx, hwidth]
      · rintro rfl
        exact hw (hlengths [] hx).symm
  · rintro ⟨factors, htakes, rfl⟩
    obtain ⟨x, hx⟩ := List.exists_mem_of_ne_nil samples hne
    have hfirst := htakes x hx
    have hlengths : ∀ y ∈ samples, y.length = x.length := fun y hy =>
      Int.ofNat_inj.1 ((htakes y hy).length.trans hfirst.length.symm)
    have ht : Tensor.ofRows samples =
        .ok ⟨_, samples.flatten, Tensor.length_flatten_of_lengths hlengths⟩ :=
      (Tensor.ofRows_eq_ok hne).2 ⟨_, hlengths, rfl, rfl⟩
    have hrows := Tensor.rows_of_ofRows hne ht
    rw [ht, scaleAll_matrix_eq_ok hcount rfl, hrows]
    exact ⟨factors, hfirst.fit, hfirst.length, mt List.length_eq_zero_iff.1 hfirst.ne_nil,
      any_flatten_eq_false.2 fun y hy => (htakes y hy).finite, rfl⟩

lemma scale_ofList (s : Scaling) (x : List Float) :
    s.scale (.ok (.ofList x)) = (s.scaleAll (Tensor.ofRows [x])).map (·.headD []) := by
  have hone : Tensor.ofRows [x] = Tensor.ofEntries [1, x.length] x := by
    rw [Tensor.ofRows, List.flatten_singleton]
    rfl
  have hentries : x.length = [1, x.length].foldr (· * ·) 1 := by simp
  rw [scale, hone, Tensor.ofList, Tensor.ofEntries, dif_pos hentries]

/-- **A sample alone** is scaled if a scaling with factors takes it. -/
lemma scale_ofList_eq_ok : s.scale (.ok (.ofList x)) = .ok row ↔
    ∃ factors, s.Takes factors x ∧ row = scaleRow factors x := by
  simp only [scale_ofList, map_eq_ok, scaleAll_ofRows (List.cons_ne_nil x []),
    List.forall_mem_singleton, List.map_singleton]
  constructor
  · rintro ⟨_, ⟨factors, htakes, rfl⟩, rfl⟩
    exact ⟨factors, htakes, rfl⟩
  · rintro ⟨factors, htakes, rfl⟩
    exact ⟨_, ⟨factors, htakes, rfl⟩, rfl⟩

lemma scaleAll_ofRows_iff (hne : samples ≠ []) : s.scaleAll (Tensor.ofRows samples) = .ok rows ↔
    List.Forall₂ (fun x row => s.scale (.ok (.ofList x)) = .ok row) samples rows := by
  simp only [scaleAll_ofRows hne, scale_ofList_eq_ok]
  constructor
  · rintro ⟨factors, htakes, rfl⟩
    rw [List.forall₂_map_right_iff, List.forall₂_same]
    exact fun x hx => ⟨factors, htakes x hx, rfl⟩
  · intro h
    cases h with
    | nil => exact absurd rfl hne
    | @cons x row xs rows hfirst hrest =>
      -- all samples meet the factors of the scaling, and so the same ones
      obtain ⟨factors, htakes, rfl⟩ := hfirst
      have hsame : ∀ y row, (∃ f, s.Takes f y ∧ row = scaleRow f y) →
          s.Takes factors y ∧ scaleRow factors y = row := by
        rintro y _ ⟨f, hf, rfl⟩
        obtain rfl : f = factors := Fit.fitted.inj (hf.fit.symm.trans htakes.fit)
        exact ⟨hf, rfl⟩
      obtain ⟨hall, hrows⟩ := (List.forall₂_and_left _ _).1 (hrest.imp hsame)
      rw [← List.forall₂_map_left_iff (R := Eq), List.forall₂_eq_eq_eq] at hrows
      exact ⟨factors, List.forall_mem_cons.2 ⟨htakes, hall⟩, congrArg _ hrows.symm⟩

lemma scaleAll_iff_exists {all : Except Tensor.Error Tensor} :
    s.scaleAll all = .ok rows ↔ ∃ t, all = .ok t ∧ s.scaleAll (.ok t) = .ok rows := by
  cases all with
  | error e => simp [scaleAll_error_ne]
  | ok t => simp

lemma scale_iff_exists {sample : Except Tensor.Error Tensor} :
    s.scale sample = .ok row ↔ ∃ t, sample = .ok t ∧ s.scale (.ok t) = .ok row := by
  cases sample with
  | error e => simp [scale]
  | ok t => simp

/-! ### Lists of values -/

variable {items : List Json} {lists : List (List Json)}

lemma scale_list_eq_ok (h : Tensor.Flat items) : s.scale (Tensor.ofJson (.arr items)) = .ok row ↔
    ∃ xs, Tensor.Reads items xs ∧ s.scale (.ok (.ofList xs)) = .ok row := by
  rw [scale_iff_exists]
  simp only [h.ofJson_eq_ok]
  constructor
  · rintro ⟨_, ⟨xs, hreads, rfl⟩, hrow⟩
    exact ⟨xs, hreads, hrow⟩
  · rintro ⟨xs, hreads, hrow⟩
    exact ⟨_, ⟨xs, hreads, rfl⟩, hrow⟩

lemma scaleAll_lists_eq_ok (hne : lists ≠ []) (hflat : ∀ items ∈ lists, Tensor.Flat items) :
    s.scaleAll (Tensor.ofJson (.arr (lists.map .arr))) = .ok rows ↔
      ∃ samples, List.Forall₂ Tensor.Reads lists samples ∧
        s.scaleAll (Tensor.ofRows samples) = .ok rows := by
  rw [scaleAll_iff_exists]
  simp only [Tensor.ofJson_lists hne hflat]
  constructor
  · rintro ⟨t, ⟨samples, hreads, ht⟩, hrows⟩
    exact ⟨samples, hreads, ht ▸ hrows⟩
  · rintro ⟨samples, hreads, hrows⟩
    obtain ⟨t, ht, hrows⟩ := scaleAll_iff_exists.1 hrows
    exact ⟨t, ⟨samples, hreads, ht⟩, hrows⟩

lemma scaleAll_lists_iff (hne : lists ≠ []) (hflat : ∀ items ∈ lists, Tensor.Flat items) :
    s.scaleAll (Tensor.ofJson (.arr (lists.map .arr))) = .ok rows ↔
      List.Forall₂ (fun items row => s.scale (Tensor.ofJson (.arr items)) = .ok row) lists
        rows := by
  calc s.scaleAll (Tensor.ofJson (.arr (lists.map .arr))) = .ok rows
      ↔ ∃ samples, List.Forall₂ Tensor.Reads lists samples ∧
          s.scaleAll (Tensor.ofRows samples) = .ok rows := scaleAll_lists_eq_ok hne hflat
    _ ↔ ∃ samples, List.Forall₂ Tensor.Reads lists samples ∧
          List.Forall₂ (fun xs row => s.scale (.ok (.ofList xs)) = .ok row) samples rows := by
        refine exists_congr fun samples => and_congr_right fun hreads => scaleAll_ofRows_iff ?_
        rintro rfl
        cases hreads
        exact hne rfl
    _ ↔ List.Forall₂ (fun items row => ∃ xs, Tensor.Reads items xs ∧
          s.scale (.ok (.ofList xs)) = .ok row) lists rows := Tensor.exists_forall₂_iff
    _ ↔ List.Forall₂ (fun items row => s.scale (Tensor.ofJson (.arr items)) = .ok row)
          lists rows := by
        constructor <;> intro h
        · exact ((List.forall₂_and_left _ _).2 ⟨hflat, h⟩).imp fun _ _ ⟨hitems, hrow⟩ =>
            (scale_list_eq_ok hitems).2 hrow
        · exact ((List.forall₂_and_left _ _).2 ⟨hflat, h⟩).imp fun _ _ ⟨hitems, hrow⟩ =>
            (scale_list_eq_ok hitems).1 hrow

/-! ### Batches -/

/-- Samples that are given together, at least one, and what each of them is alone: rows of floats,
or lists of values from which floats have yet to be read. -/
inductive Batch : Except Tensor.Error Tensor → List (Except Tensor.Error Tensor) → Prop where
  | rows (samples : List (List Float)) (hne : samples ≠ []) :
    Batch (Tensor.ofRows samples) (samples.map fun x => .ok (.ofList x))
  | values (lists : List (List Json)) (hne : lists ≠ [])
    (hflat : ∀ items ∈ lists, Tensor.Flat items) :
    Batch (Tensor.ofJson (.arr (lists.map .arr)))
      (lists.map fun items => Tensor.ofJson (.arr items))

variable {all : Except Tensor.Error Tensor} {each : List (Except Tensor.Error Tensor)}

lemma Batch.scaleAll_iff (h : Batch all each) : s.scaleAll all = .ok rows ↔
    List.Forall₂ (fun sample row => s.scale sample = .ok row) each rows := by
  cases h with
  | rows samples hne => rw [scaleAll_ofRows_iff hne, List.forall₂_map_left_iff]
  | values lists hne hflat => rw [scaleAll_lists_iff hne hflat, List.forall₂_map_left_iff]

/-- **Samples are scaled together as each of them is scaled alone**, in every state of a scaling.
Together they are scaled if each of them is, and then what comes of a sample is what comes of it
alone, whatever stands beside it. -/
theorem scaled_together_as_alone (s : Scaling) (all : Except Tensor.Error Tensor)
    (each : List (Except Tensor.Error Tensor)) (h : Batch all each) :
    ((∃ rows, s.scaleAll all = .ok rows) ↔ ∀ sample ∈ each, ∃ row, s.scale sample = .ok row) ∧
      (∀ rows, s.scaleAll all = .ok rows →
        List.Forall₂ (fun sample row => s.scale sample = .ok row) each rows) ∧
      ∀ others eachOther, Batch others eachOther → ∀ rows rows', s.scaleAll all = .ok rows →
        s.scaleAll others = .ok rows' → ∀ i j : ℕ, i < each.length → each[i]? = eachOther[j]? →
          rows[i]? = rows'[j]? := by
  refine ⟨?_, fun rows => h.scaleAll_iff.1, ?_⟩
  · simp only [h.scaleAll_iff, Tensor.exists_forall₂_iff_forall]
  · intro others eachOther hothers rows rows' hrows hrows' i j hi hsame
    rw [List.getElem?_eq_getElem hi] at hsame
    obtain ⟨row, hrow, halone⟩ := Tensor.exists_of_forall₂ (h.scaleAll_iff.1 hrows)
      (List.getElem?_eq_getElem hi)
    obtain ⟨row', hrow', halone'⟩ :=
      Tensor.exists_of_forall₂ (hothers.scaleAll_iff.1 hrows') hsame.symm
    obtain rfl : row = row' := Except.ok.inj (halone.symm.trans halone')
    rw [hrow, hrow']

theorem scaled_together_as_alone_pair :
    let samples : List (List Float) := [[0.5], [1.0]]
    samples ≠ [] ∧ ∃ rows, fittedToPair.scaleAll (Tensor.ofRows samples) = .ok rows ∧
      List.Forall₂ (fun sample row => fittedToPair.scale sample = .ok row)
        [.ok (.ofList [0.5]), .ok (.ofList [1.0])] rows := by
  intro samples
  have hne : samples ≠ [] := List.cons_ne_nil _ _
  obtain ⟨hall, hrows, -⟩ := scaled_together_as_alone fittedToPair _ _ (.rows samples hne)
  have halone {x : Float} (hx : [x].any Float.isInf = false) :
      ∃ row, fittedToPair.scale (.ok (.ofList [x])) = .ok row := by
    have htakes : fittedToPair.Takes ((columns 1 pairOfSamples.rows).map factorOf) [x] := by
      rw [fittedToPair_eq]
      exact ⟨rfl, rfl, List.cons_ne_nil _ _, hx⟩
    exact ⟨_, scale_ofList_eq_ok.2 ⟨_, htakes, rfl⟩⟩
  obtain ⟨rows, h⟩ := hall.2 (List.forall_mem_cons.2 ⟨halone (by decide +kernel),
    List.forall_mem_singleton.2 (halone (by decide +kernel))⟩)
  exact ⟨hne, rows, h, hrows rows h⟩

end SoundAtlas.Feature.Scaling
