import SoundAtlas.Proofs.Number.Overflow
import SoundAtlas.Settings.Training

/-!
When settings that have been checked give a grid its size. The checks refuse what is at most zero.
So they let pass what is no number, which has no root, and numbers that are so small that the number
of cells is beyond the range of floats; for all other settings there is a grid, of at least two by
two cells.
-/

namespace SoundAtlas

open Number Float.Model

namespace Grid

variable {samples : ℤ} {p : Float}

/-- With so few samples for each cell the number of cells is beyond the range of floats. -/
def Overflows (samples : ℤ) (perNeuron : Float) : Prop :=
  ∃ m e, parts perNeuron = .finite false m e ∧ overflowPoint * (m * 2 ^ e) ≤ samples

lemma unpack_of_not_le (hp : ¬ p ≤ 0.0) : p.toModel.unpack = .notANumber ∨
    p.toModel.unpack = .infinity .positive ∨
    ∃ m e h, p.toModel.unpack = .finite .positive m e h := by
  have hzero : rank 0.0 = some (.mk 0 0 0) := rfl
  rw [le_iff, hzero, rank] at hp
  revert hp
  rcases p.toModel.unpack with (_ | _) | _ | (_ | _) | ⟨_ | _, m, e, h⟩ <;> intro hp
  case infinity.positive => exact .inr (.inl rfl)
  case notANumber => exact .inl rfl
  case finite.positive => exact .inr (.inr ⟨m, e, h, rfl⟩)
  all_goals
    refine absurd ⟨_, _, rfl, rfl, ?_⟩ hp
    first | exact le_rfl | exact (Rank.mk_lt.2 (by simp)).le

/-- The size of a grid is computed without any other failure than that of the root. -/
lemma sideFor_eq (hn : 0 < samples) (hlt : samples < 2 ^ 53) (hp : ¬ p ≤ 0.0) :
    sideFor samples p =
      (wholePart (Float.ofInt samples / p).sqrt >>= fun side => .ok (max 2 side)) := by
  have hfloat : floatOfInt? samples = some (Float.ofInt samples) := by
    rw [floatOfInt?, isInf_ofInt hn (hlt.trans (by norm_num))]
    rfl
  have hne : ¬ (p == 0.0) = true := by
    intro h
    obtain ⟨r, hr, hr'⟩ := beq_iff.1 h
    exact hp (le_iff.2 ⟨r, r, hr, hr', le_rfl⟩)
  have hdivide : divideInt samples p = .ok (Float.ofInt samples / p) := by
    rw [divideInt, hfloat]
    exact if_neg hne
  have hdividend : ¬ Float.ofInt samples < 0.0 := by
    obtain ⟨m, e, h, hs, -⟩ := unpack_ofInt hn hlt
    rw [not_neg_iff, hs]
    exact .inl trivial
  have hdivisor : Unsigned p.toModel.unpack := by
    obtain h | h | ⟨m, e, hm, h⟩ := unpack_of_not_le hp <;> rw [h] <;> trivial
  rw [sideFor, hdivide]
  change (if Float.ofInt samples / p < 0.0 then _ else _) = _
  rw [if_neg (not_neg_div hdividend hdivisor)]
  rfl

lemma unpack_sqrt {x : Float} {u : UnpackedFloat} (h : x.toModel.unpack = u) :
    x.sqrt.toModel.unpack = (Float.Model.pack (UnpackedFloat.sqrt .binary64 u)).unpack :=
  congrArg (fun v => (Float.Model.pack (UnpackedFloat.sqrt .binary64 v)).unpack) h

lemma exists_wholePart_sqrt {x : Float} (hx : x.toModel.unpack = .zero .positive ∨
    ∃ m e h, x.toModel.unpack = .finite .positive m e h) :
    ∃ side, wholePart x.sqrt = .ok side := by
  rcases hx with hx | ⟨m, e, h, hx⟩
  · have hroot : x.sqrt.toModel.unpack = .zero .positive := unpack_sqrt hx
    refine ⟨scaleDown 0 (-1074), ?_⟩
    rw [wholePart, parts_eq, hroot]
    rfl
  · obtain hroot | ⟨m', e', h', hroot, -⟩ := atMost_sqrt hx
    · refine ⟨scaleDown 0 (-1074), ?_⟩
      rw [wholePart, parts_eq, hroot]
      rfl
    · refine ⟨scaleDown m' e', ?_⟩
      rw [wholePart, parts_eq, hroot]
      rfl

/-- **A grid has a size**, unless the number of samples for each cell is no number, or so small that
the quotient overflows. -/
lemma sideFor_cases (hn : 0 < samples) (hlt : samples < 2 ^ 53) (hp : ¬ p ≤ 0.0) :
    (parts p = .notANumber ∧ sideFor samples p = .error .noRoot) ∨
      (Overflows samples p ∧ sideFor samples p = .error .infinite) ∨
      (parts p ≠ .notANumber ∧ ¬ Overflows samples p ∧
        ∃ side, sideFor samples p = .ok side ∧ 2 ≤ side) := by
  obtain ⟨m₁, e₁, h₁, hs, -, -, hvalue⟩ := unpack_ofInt hn hlt
  rw [sideFor_eq hn hlt hp, parts_eq]
  set q := Float.ofInt samples / p
  have hfound (h : q.toModel.unpack = .zero .positive ∨
      ∃ m e h, q.toModel.unpack = .finite .positive m e h) :
      ∃ side, (wholePart q.sqrt >>= fun side => Except.ok (max 2 side)) = .ok side ∧ 2 ≤ side := by
    obtain ⟨side, hside⟩ := exists_wholePart_sqrt h
    refine ⟨max 2 side, ?_, le_max_left _ _⟩
    rw [hside]
    rfl
  rcases unpack_of_not_le hp with h | h | ⟨m₂, e₂, h₂, h⟩
  · have hnone : q.toModel.unpack = .notANumber := unpack_div (w := .notANumber) hs h rfl
    have hroot : q.sqrt.toModel.unpack = .notANumber := unpack_sqrt hnone
    rw [h, wholePart, parts_eq, hroot]
    exact .inl ⟨rfl, rfl⟩
  · have hzero : q.toModel.unpack = .zero .positive :=
      unpack_div (w := .zero .positive) hs h rfl
    refine .inr (.inr ⟨by rw [h]; nofun, ?_, hfound (.inl hzero)⟩)
    rintro ⟨m, e, hparts, -⟩
    rw [parts_eq, h] at hparts
    cases hparts
  · have hoverflows : Overflows samples p ↔ overflowPoint * (m₂ * 2 ^ e₂) ≤ m₁ * 2 ^ e₁ := by
      rw [Overflows, parts_eq, h, hvalue]
      constructor
      · rintro ⟨m, e, hparts, hle⟩
        cases hparts
        exact hle
      · exact fun hle => ⟨m₂, e₂, rfl, hle⟩
    rw [hoverflows, h]
    rcases div_cases hs h with ⟨hle, hinfinite⟩ | ⟨hle, hfinite⟩
    · have hroot : q.sqrt.toModel.unpack = .infinity .positive := unpack_sqrt hinfinite
      rw [wholePart, parts_eq, hroot]
      exact .inr (.inl ⟨hle, rfl⟩)
    · exact .inr (.inr ⟨nofun, hle, hfound hfinite⟩)

end Grid

/-! ### Settings -/

namespace Settings

variable {s : Settings} {samples : ℤ}

/-- Settings that pass the checks have numbers of iterations and of samples for each cell that are
not at most zero. -/
lemma of_validate (h : s.validate = .ok ()) : ¬ s.iterations ≤ 0 ∧ ¬ s.perNeuron ≤ 0.0 := by
  unfold validate at h
  by_cases hi : s.iterations ≤ 0
  · rw [if_pos hi] at h
    cases h
  · rw [if_neg hi] at h
    by_cases hp : s.perNeuron ≤ 0.0
    · rw [if_pos hp] at h
      cases h
    · exact ⟨hi, hp⟩

/-- **Settings that pass the checks describe a training**, and give a grid its size exactly if the
number of samples for each cell is a number and not too small; else the size fails in one of two
ways. -/
theorem sizes_grid_iff (s : Settings) (features : FeatureSettings) (samples : ℤ)
    (h : s.validate = .ok ()) (hn : 1 ≤ samples) (hlt : samples < 2 ^ 53) :
    TrainSettings.ofSettings s features = .ok ⟨features, s.iterations, s.perNeuron⟩ ∧
      ((∃ side, Grid.sideFor samples s.perNeuron = .ok side ∧ 2 ≤ side) ↔
        parts s.perNeuron ≠ .notANumber ∧ ¬ Grid.Overflows samples s.perNeuron) ∧
      (parts s.perNeuron = .notANumber → Grid.sideFor samples s.perNeuron = .error .noRoot) ∧
      (Grid.Overflows samples s.perNeuron →
        Grid.sideFor samples s.perNeuron = .error .infinite) := by
  obtain ⟨hi, hp⟩ := of_validate h
  refine ⟨?_, ?_⟩
  · rw [TrainSettings.ofSettings, TrainSettings.make, if_neg hi, if_neg hp]
  · rcases Grid.sideFor_cases hn hlt hp with ⟨hnone, herror⟩ | ⟨hover, herror⟩ |
      ⟨hnumber, hroom, hside⟩
    · refine ⟨?_, fun _ => herror, ?_⟩
      · rw [herror]
        simp [hnone]
      · rintro ⟨m, e, hparts, -⟩
        rw [hnone] at hparts
        cases hparts
    · refine ⟨?_, ?_, fun _ => herror⟩
      · rw [herror]
        simp [hover]
      · obtain ⟨m, e, hparts, -⟩ := hover
        intro hnone
        rw [hnone] at hparts
        cases hparts
    · exact ⟨iff_of_true hside ⟨hnumber, hroom⟩, fun hnone => absurd hnone hnumber,
        fun hover => absurd hover hroom⟩

/-- The settings that hold unless others are given, in a folder that does not matter. -/
def plain : Settings :=
  .standard ⟨"", ["proj"]⟩

/-- The plain settings give a grid for thirty-six samples its size. -/
theorem sizes_grid_plain : (plain.validate = .ok () ∧ (1 : ℤ) ≤ 36 ∧ (36 : ℤ) < 2 ^ 53) ∧
    TrainSettings.ofSettings plain [] = .ok ⟨[], 10, 4.0⟩ ∧
    Grid.sideFor 36 plain.perNeuron = .ok 3 ∧
    parts plain.perNeuron ≠ .notANumber ∧ ¬ Grid.Overflows 36 plain.perNeuron := by
  have hvalid : plain.validate = .ok () := by rfl
  have hside : Grid.sideFor 36 plain.perNeuron = .ok 3 := by decide +kernel
  obtain ⟨htraining, hsize, -, -⟩ := sizes_grid_iff plain [] 36 hvalid (by norm_num) (by norm_num)
  obtain ⟨hnumber, hroom⟩ := hsize.1 ⟨3, hside, by norm_num⟩
  exact ⟨⟨hvalid, by norm_num, by norm_num⟩, htraining, hside, hnumber, hroom⟩

def strayNumber : Settings :=
  { plain with perNeuron := 0.0 / 0.0 }

/-- Settings whose number of samples for each cell is the least positive float. -/
def leastNumber : Settings :=
  { plain with perNeuron := .ofBits 1 }

/-- **Settings that pass the checks may give a grid no size**, not even for one sample. -/
theorem not_sizes_grid :
    (strayNumber.validate = .ok () ∧ Grid.sideFor 1 strayNumber.perNeuron = .error .noRoot) ∧
      (leastNumber.validate = .ok () ∧
        Grid.sideFor 1 leastNumber.perNeuron = .error .infinite) := by
  refine ⟨⟨?_, ?_⟩, ?_, ?_⟩ <;> rfl

end Settings

end SoundAtlas
