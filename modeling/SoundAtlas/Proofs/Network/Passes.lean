import SoundAtlas.Network.Training
import SoundAtlas.Proofs.Chains
import SoundAtlas.Proofs.Number.Sign

/-!
A training is a sequence of passes over the samples. A watcher who stops it, stops it between two
passes: what is left then is what any training has after as many passes as have been announced, with
the schedule of all that were asked for. A request that is refused leaves everything as it was.
-/

namespace SoundAtlas.Network

open Number

/-! ### The schedule -/

section Schedule

variable {n : Network} {iteration count : ℤ}

lemma exists_learningRate (h : 0 ≤ iteration) (hlt : iteration < count) :
    ∃ rate, n.learningRate iteration count = .ok rate := by
  obtain ⟨done, hdone, -⟩ := quotient_share h hlt.le (h.trans_lt hlt)
  exact ⟨n.initialRate * (1.0 - done), by rw [learningRate, hdone]; rfl⟩

lemma unsigned_startRadius (n : Network) : Unsigned n.startRadius.toModel.unpack := by
  have hhalf : Unsigned (Float.ofNat (max n.grid.width n.grid.height) / 2.0).toModel.unpack :=
    ((unsigned_ofNat _).div (v := (2.0 : Float).toModel.unpack) trivial).pack
  unfold startRadius
  dsimp only
  split
  · rename_i hlt
    exact hhalf.of_lt hlt
  · exact hhalf

/-- **There is a radius for every iteration** unless the final radius is negative. The first
iteration has one even then, and so have two. -/
lemma exists_radius (hreal : ¬ n.finalRadius < 0.0 ∨ count ≤ 2 ∨ iteration = 0) (h : 0 ≤ iteration)
    (hlt : iteration < count) : ∃ radius, n.radius iteration count = .ok radius := by
  unfold radius
  dsimp only
  split
  · exact ⟨_, rfl⟩
  · rename_i hcount
    obtain ⟨progress, hprogress, hzero, hone⟩ :=
      quotient_share (i := iteration) (n := count - 1) h (by omega) (by omega)
    have hroot : n.finalRadius / n.startRadius < 0.0 → (n.finalRadius / n.startRadius).isFinite →
        isWhole progress = true := by
      intro hneg _
      by_cases hfirst : iteration = 0
      · have hwhole : quotient 0 (count - 1) = .ok 0.0 := by
          rw [quotient, if_neg (by omega), if_pos rfl, if_neg (by omega)]
        obtain rfl : 0.0 = progress := Except.ok.inj (by rw [← hwhole, ← hprogress, hfirst])
        decide +kernel
      · obtain hfinal | htwo | hiteration := hreal
        · exact absurd hneg (not_neg_div hfinal n.unsigned_startRadius)
        · obtain rfl : count = 2 := by omega
          obtain rfl : iteration = 1 := by omega
          have hwhole : quotient 1 (2 - 1) = .ok 1.0 := rfl
          obtain rfl : 1.0 = progress := Except.ok.inj (hwhole.symm.trans hprogress)
          decide +kernel
        · exact absurd hiteration hfirst
    obtain ⟨factor, hfactor⟩ := exists_power hzero hone hroot
    exact ⟨n.startRadius * factor, by rw [hprogress]; simp only [bind, Except.bind, hfactor]; rfl⟩

end Schedule

/-! ### Passes -/

section Passes

variable {γ σ ε : Type} [Random.Source γ] {n : Network}

def pass (n : Network) (rows : Array n.Sample) (rate radius : Float) (p : n.References × γ) :
    n.References × γ :=
  let drawn := Random.Source.permutation rows.size p.2
  (n.presentAll n.weights rate radius p.1 (drawn.1.map rows.toVector.get), drawn.2)

/-- The reference vectors and the generator after the first passes of `count`. -/
def passes (n : Network) (rows : Array n.Sample) (count : ℕ) (g : γ) :
    ℕ → Except ArithmeticError (n.References × γ)
  | 0 => .ok (n.references, g)
  | k + 1 => do
    let before ← passes n rows count g k
    let rate ← n.learningRate k count
    let radius ← n.radius k count
    return n.pass rows rate radius before

/-- What a watcher remembers after the first passes of `count`: before each they are asked whether
to stop, and then hear which one begins. -/
def heard (watch : Watch σ ε) (count : ℕ) (w : σ) : ℕ → σ
  | 0 => w
  | k + 1 => (watch.announce k count (watch.poll (heard watch count w k)).2).2

lemma passes_succ {rows : Array n.Sample} {count k : ℕ} {g : γ} {p : n.References × γ} :
    n.passes rows count g (k + 1) = .ok p ↔ ∃ before rate radius,
      n.passes rows count g k = .ok before ∧ n.learningRate k count = .ok rate ∧
        n.radius k count = .ok radius ∧ p = n.pass rows rate radius before := by
  simp only [passes, bind_eq_ok, pure, Except.pure, Except.ok.injEq]
  constructor
  · rintro ⟨before, hbefore, rate, hrate, radius, hradius, rfl⟩
    exact ⟨before, rate, radius, hbefore, hrate, hradius, rfl⟩
  · rintro ⟨before, rate, radius, hbefore, hrate, hradius, rfl⟩
    exact ⟨before, hbefore, rate, hrate, radius, hradius, rfl⟩

lemma exists_passes {rows : Array n.Sample} {count k : ℕ} {g : γ}
    (hreal : ¬ n.finalRadius < 0.0 ∨ (count : ℤ) ≤ 2 ∨ k ≤ 1) (hk : k ≤ count) :
    ∃ p, n.passes rows count g k = .ok p := by
  induction k with
  | zero => exact ⟨_, rfl⟩
  | succ k ih =>
    obtain ⟨before, hbefore⟩ :=
      ih (hreal.imp_right (.imp_right Nat.le_of_succ_le)) (Nat.le_of_succ_le hk)
    have hlt : (k : ℤ) < count := by exact_mod_cast hk
    obtain ⟨rate, hrate⟩ := exists_learningRate (n := n) (Int.natCast_nonneg k) hlt
    obtain ⟨radius, hradius⟩ := exists_radius
      (hreal.imp_right (.imp_right fun h => by omega)) (Int.natCast_nonneg k) hlt
    exact ⟨_, passes_succ.2 ⟨before, rate, radius, hbefore, hrate, hradius, rfl⟩⟩

lemma iterate_pass {rows : Array n.Sample} {watch : Watch σ ε} {count k : ℕ}
    {references : n.References} {g : γ} {w : σ} {rate radius : Float} (hk : k < count)
    (hpoll : (watch.poll w).1 = false)
    (htold : (watch.announce k count (watch.poll w).2).1 = .ok ())
    (hrate : n.learningRate k count = .ok rate) (hradius : n.radius k count = .ok radius) :
    n.iterate rows watch count (count - k) references g w =
      n.iterate rows watch count (count - (k + 1)) (n.pass rows rate radius (references, g)).1
        (n.pass rows rate radius (references, g)).2
        (watch.announce k count (watch.poll w).2).2 := by
  obtain ⟨left, hleft⟩ : ∃ left, count - k = left + 1 := ⟨count - (k + 1), by omega⟩
  have hiteration : count - (left + 1) = k := by omega
  have hrest : count - (k + 1) = left := by omega
  rw [hleft, hrest, iterate]
  simp only [hiteration, hpoll, Bool.false_eq_true, if_false, htold, hrate, hradius]
  rfl

/-- **The passes are what a training goes through**: as long as it is not cancelled, it goes on from
the reference vectors and the generator that they leave. -/
lemma iterate_passes {rows : Array n.Sample} {watch : Watch σ ε} {count : ℕ} {g : γ} {w : σ}
    (htold : ∀ k w, (watch.announce k count w).1 = .ok ()) {k : ℕ} {p : n.References × γ}
    (hk : k ≤ count) (hp : n.passes rows count g k = .ok p)
    (hpoll : ∀ j < k, (watch.poll (heard watch count w j)).1 = false) :
    n.iterate rows watch count count n.references g w =
      n.iterate rows watch count (count - k) p.1 p.2 (heard watch count w k) := by
  induction k generalizing p with
  | zero =>
    obtain rfl := Except.ok.inj hp
    rfl
  | succ k ih =>
    obtain ⟨before, rate, radius, hbefore, hrate, hradius, rfl⟩ := passes_succ.1 hp
    rw [ih (Nat.le_of_succ_le hk) hbefore fun j hj => hpoll j (Nat.lt_succ_of_lt hj)]
    exact iterate_pass hk (hpoll k (Nat.lt_succ_self k)) (htold k _) hrate hradius

lemma iterate_cancels {rows : Array n.Sample} {watch : Watch σ ε} {count left : ℕ}
    {references : n.References} {g : γ} {w : σ} (hpoll : (watch.poll w).1 = true) :
    n.iterate rows watch count (left + 1) references g w =
      ⟨.cancelled, references, g, (watch.poll w).2⟩ := by
  rw [iterate]
  exact if_pos hpoll

lemma iterate_notReal {rows : Array n.Sample} {watch : Watch σ ε} {count k : ℕ}
    {references : n.References} {g : γ} {w : σ} {rate : Float} (hk : k < count)
    (hpoll : (watch.poll w).1 = false)
    (htold : (watch.announce k count (watch.poll w).2).1 = .ok ())
    (hrate : n.learningRate k count = .ok rate) (hradius : n.radius k count = .error .notReal) :
    (n.iterate rows watch count (count - k) references g w).ending = .arithmetic .notReal := by
  obtain ⟨left, hleft⟩ : ∃ left, count - k = left + 1 := ⟨count - (k + 1), by omega⟩
  have hiteration : count - (left + 1) = k := by omega
  rw [hleft, iterate]
  simp only [hiteration, hpoll, Bool.false_eq_true, if_false, htold, hrate, hradius]

/-! ### Requests -/

/-- A request that is not refused: the network is untrained, there is an iteration, and there is a
sample, with as many components as the network has dimensions, like all others. -/
structure Valid (n : Network) (samples : Except Tensor.Error Tensor) (count : ℤ) : Prop where
  untrained : n.state = .uninitialized
  count_pos : 0 < count
  rows : ∃ t rows, samples = .ok t ∧ 0 < rows ∧ t.shape = [rows, n.dimensions]

lemma exists_trainingSamples {samples : Except Tensor.Error Tensor} {count : ℤ} :
    (∃ rows, n.trainingSamples samples count = .ok rows) ↔ Valid n samples count := by
  simp only [trainingSamples, bind, Except.bind, throw, throwThe, MonadExceptOf.throw, pure,
    Except.pure]
  constructor
  · rintro ⟨rows, h⟩
    split at h
    · cases h
    · rename_i hstate
      split at h
      · cases h
      · rename_i hcount
        split at h
        · cases h
        · rename_i t ht
          have hsamples : samples = .ok t := by
            cases samples with
            | error e => cases ht
            | ok t' => exact congrArg _ (Except.ok.inj ht)
          split at h
          · cases h
          · rename_i count' width hne hshape
            split at h
            · rename_i m hm
              have hsize : t.shape = [count', n.dimensions] := by
                by_contra hsize
                rw [Tensor.matrix?, dif_neg hsize] at hm
                cases hm
              obtain rfl : width = n.dimensions := by
                simpa using hshape.symm.trans hsize
              exact ⟨not_not.1 hstate, by omega, t, count', hsamples, Nat.pos_of_ne_zero hne, hsize⟩
            · cases h
          · cases h
  · rintro ⟨hstate, hcount, t, count', rfl, hpos, hshape⟩
    obtain ⟨left, rfl⟩ := Nat.exists_eq_succ_of_ne_zero hpos.ne'
    have hm : t.matrix? (left + 1) n.dimensions ≠ none := by
      rw [Tensor.matrix?, dif_pos hshape]
      exact Option.some_ne_none _
    obtain ⟨m, hm⟩ := Option.ne_none_iff_exists'.1 hm
    refine ⟨m.toArray, ?_⟩
    rw [if_neg (not_not.2 hstate), if_neg hcount.not_ge]
    simp only [requireArray, Except.mapError, hshape, hm]

lemma train_eq {samples : Except Tensor.Error Tensor} {count : ℤ} {watch : Watch σ ε} {g : γ}
    {w : σ} {rows : Array n.Sample} (hrows : n.trainingSamples samples count = .ok rows) :
    n.train samples count watch g w =
      let course := n.iterate rows watch count.toNat count.toNat n.references g w
      { result := course.ending.result.2
        network := { n with references := course.references, state := course.ending.result.1 }
        generator := course.generator
        watcher := course.watcher } := by
  rw [train, hrows]

/-- **A training fails** at an iteration whose radius is not real. -/
lemma train_notReal {samples : Except Tensor.Error Tensor} {count : ℤ} {watch : Watch σ ε} {g : γ}
    {w : σ} {rows : Array n.Sample} {k : ℕ} {p : n.References × γ}
    (hrows : n.trainingSamples samples count = .ok rows)
    (htold : ∀ k w, (watch.announce k count.toNat w).1 = .ok ()) (hk : k < count.toNat)
    (hp : n.passes rows count.toNat g k = .ok p)
    (hpoll : ∀ j ≤ k, (watch.poll (heard watch count.toNat w j)).1 = false)
    (hradius : n.radius k count.toNat = .error .notReal) :
    (n.train samples count watch g w).result = .error (.network (.arithmetic .notReal)) ∧
      (n.train samples count watch g w).network.state = .training := by
  have hlt : (k : ℤ) < count.toNat := by exact_mod_cast hk
  obtain ⟨rate, hrate⟩ := exists_learningRate (n := n) (Int.natCast_nonneg k) hlt
  have hrun := iterate_passes htold hk.le hp fun j hj => hpoll j hj.le
  have hending : (n.iterate rows watch count.toNat count.toNat n.references g w).ending =
      .arithmetic .notReal := by
    rw [hrun]
    exact iterate_notReal hk (hpoll k le_rfl) (htold k _) hrate hradius
  rw [train_eq hrows]
  dsimp only
  rw [hending]
  exact ⟨rfl, rfl⟩

/-- **A request that is refused** changes nothing. -/
lemma train_of_not_valid {samples : Except Tensor.Error Tensor} {count : ℤ} {watch : Watch σ ε}
    {g : γ} {w : σ} (h : ¬ Valid n samples count) :
    ∃ e, n.train samples count watch g w = ⟨.error (.network e), n, g, w⟩ := by
  rw [← exists_trainingSamples] at h
  unfold train
  cases hrows : n.trainingSamples samples count with
  | error e => exact ⟨e, rfl⟩
  | ok rows => exact absurd ⟨rows, hrows⟩ h

/-- **A training is stopped between two passes.** A valid request to train is carried out pass by
pass: whoever is first told to stop at the `k`th question has heard of the passes before, and the
network is aborted with the reference vectors that any training with this schedule has after them; a
training that is never stopped goes through all passes. There are all these passes unless the final
radius is negative, and then there is still the first, or both of two. Any other request changes
nothing, so whatever is asked for next is answered as if it had not been made. -/
theorem training_stops_between_passes {γ σ ε : Type} [Random.Source γ] (n : Network)
    (samples : Except Tensor.Error Tensor) (count : ℤ) (watch : Watch σ ε) (g : γ) (w : σ) :
    (Valid n samples count → (∀ k w, (watch.announce k count.toNat w).1 = .ok ()) →
      ∃ rows, n.trainingSamples samples count = .ok rows ∧
        (∀ k ≤ count.toNat, ¬ n.finalRadius < 0.0 ∨ count ≤ 2 ∨ k ≤ 1 →
          ∃ p, n.passes rows count.toNat g k = .ok p) ∧
        (∀ k ≤ count.toNat, ∀ p, n.passes rows count.toNat g k = .ok p →
          (∀ j < k, (watch.poll (heard watch count.toNat w j)).1 = false) →
          n.iterate rows watch count.toNat count.toNat n.references g w =
            n.iterate rows watch count.toNat (count.toNat - k) p.1 p.2
              (heard watch count.toNat w k)) ∧
        (∀ k < count.toNat, ∀ p, n.passes rows count.toNat g k = .ok p →
          (∀ j < k, (watch.poll (heard watch count.toNat w j)).1 = false) →
          (watch.poll (heard watch count.toNat w k)).1 = true →
          n.train samples count watch g w =
            { result := .ok .aborted
              network := { n with references := p.1, state := .aborted }
              generator := p.2
              watcher := (watch.poll (heard watch count.toNat w k)).2 }) ∧
        ∀ p, n.passes rows count.toNat g count.toNat = .ok p →
          (∀ j < count.toNat, (watch.poll (heard watch count.toNat w j)).1 = false) →
          n.train samples count watch g w =
            { result := .ok .trained
              network := { n with references := p.1, state := .trained }
              generator := p.2
              watcher := heard watch count.toNat w count.toNat }) ∧
    (¬ Valid n samples count → (∃ e, n.train samples count watch g w =
        ⟨.error (.network e), n, g, w⟩) ∧
      ∀ samples' count', let t := n.train samples count watch g w
        t.network.train samples' count' watch t.generator t.watcher =
          n.train samples' count' watch g w) := by
  constructor
  · intro hvalid htold
    obtain ⟨rows, hrows⟩ := exists_trainingSamples.2 hvalid
    have hcount : (count.toNat : ℤ) = count := Int.toNat_of_nonneg hvalid.count_pos.le
    refine ⟨rows, hrows, fun k hk hreal => exists_passes (by rwa [hcount]) hk,
      fun k hk p hp hpoll => iterate_passes htold hk hp hpoll, ?_, ?_⟩
    · intro k hk p hp hpoll hstop
      obtain ⟨left, hleft⟩ : ∃ left, count.toNat - k = left + 1 := ⟨count.toNat - (k + 1), by omega⟩
      have hrun := iterate_passes htold hk.le hp hpoll
      rw [hleft, iterate_cancels hstop] at hrun
      rw [train_eq hrows, hrun]
      rfl
    · intro p hp hpoll
      have hrun := iterate_passes htold le_rfl hp hpoll
      rw [Nat.sub_self] at hrun
      rw [train_eq hrows, hrun]
      rfl
  · intro hinvalid
    obtain ⟨e, he⟩ : ∃ e, n.train samples count watch g w = ⟨.error (.network e), n, g, w⟩ :=
      train_of_not_valid hinvalid
    refine ⟨⟨e, he⟩, fun samples' count' => ?_⟩
    dsimp only
    rw [he]

end Passes

/-! ### A network of one cell -/

def dot : Shape where
  grid := ⟨1, 1⟩
  dimensions := 1
  width_pos := Nat.one_pos
  height_pos := Nat.one_pos
  dimensions_pos := Nat.one_pos

def dotNetwork (radius : Float) : Network where
  toShape := dot
  references := Vector.replicate 1 (Vector.replicate 1 (Float.toBits 0.0))
  weights := dot.evenWeights
  state := .uninitialized
  initialRate := defaultRate
  finalRadius := radius

def dotSamples : Except Tensor.Error Tensor :=
  .ok ⟨[1, 1], [0.5], rfl⟩

/-- A watcher who remembers what they have heard, and stops a training when that is enough. -/
def stopsAfter (enough : ℕ) : Watch (List (ℕ × ℕ)) Unit where
  poll heard := (decide (enough ≤ heard.length), heard)
  announce k count heard := (.ok (), heard ++ [(k, count)])

lemma valid_dot (radius : Float) : Valid (dotNetwork radius) dotSamples 3 :=
  ⟨rfl, by decide, _, 1, rfl, by decide, rfl⟩

theorem training_stops_between_passes_dot :
    let n := dotNetwork 0.5
    let g := Random.Pcg.ofSeed 1
    (∃ rows p, n.trainingSamples dotSamples 3 = .ok rows ∧ n.passes rows 3 g 1 = .ok p ∧
      n.train dotSamples 3 (stopsAfter 1) g [] =
        { result := .ok .aborted
          network := { n with references := p.1, state := .aborted }
          generator := p.2
          watcher := [(0, 3)] }) ∧
    (∃ rows p, n.trainingSamples dotSamples 3 = .ok rows ∧ n.passes rows 3 g 3 = .ok p ∧
      n.train dotSamples 3 (stopsAfter 4) g [] =
        { result := .ok .trained
          network := { n with references := p.1, state := .trained }
          generator := p.2
          watcher := [(0, 3), (1, 3), (2, 3)] }) ∧
    ∃ e, n.train dotSamples 0 (stopsAfter 1) g [] = ⟨.error (.network e), n, g, []⟩ := by
  intro n g
  have hreal : ¬ n.finalRadius < 0.0 := by decide +kernel
  refine ⟨?_, ?_, ?_⟩
  · obtain ⟨rows, hrows, hpasses, -, hstop, -⟩ :=
      (training_stops_between_passes n dotSamples 3 (stopsAfter 1) g []).1 (valid_dot 0.5)
        fun _ _ => rfl
    obtain ⟨p, hp⟩ := hpasses 1 (by decide) (.inl hreal)
    exact ⟨rows, p, hrows, hp, hstop 1 (by decide) p hp (by decide) (by decide)⟩
  · obtain ⟨rows, hrows, hpasses, -, -, hdone⟩ :=
      (training_stops_between_passes n dotSamples 3 (stopsAfter 4) g []).1 (valid_dot 0.5)
        fun _ _ => rfl
    obtain ⟨p, hp⟩ := hpasses 3 (by decide) (.inl hreal)
    exact ⟨rows, p, hrows, hp, hdone p hp (by decide)⟩
  · have hinvalid : ¬ Valid n dotSamples 0 := fun h => absurd h.count_pos (by decide)
    exact ((training_stops_between_passes n dotSamples 0 (stopsAfter 1) g []).2 hinvalid).1

/-- Half of the way is no whole number, and a negative number has no square root. -/
lemma radius_dot : (dotNetwork (-0.5)).radius 1 3 = .error .notReal := by
  have hratio : (dotNetwork (-0.5)).finalRadius / (dotNetwork (-0.5)).startRadius = -1.0 := by
    decide +kernel
  have hhalf : quotient 1 (3 - 1) = .ok 0.5 := by rfl
  have hroot : power (-1.0) 0.5 = .error .notReal := by rfl
  rw [radius, if_neg (by decide), hratio, hhalf]
  simp only [bind, Except.bind, hroot]

/-- With a negative final radius the second of three iterations has no radius: a training that
nobody stops fails. -/
theorem training_fails_with_negative_radius :
    let n := dotNetwork (-0.5)
    let watch := stopsAfter 4
    let t := n.train dotSamples 3 watch (Random.Pcg.ofSeed 1) []
    Valid n dotSamples 3 ∧ (∀ j < 3, (watch.poll (heard watch 3 [] j)).1 = false) ∧
      t.result = .error (.network (.arithmetic .notReal)) ∧ t.network.state = .training := by
  intro n watch t
  obtain ⟨rows, hrows⟩ := exists_trainingSamples.2 (valid_dot (-0.5))
  obtain ⟨p, hp⟩ : ∃ p, n.passes rows 3 (Random.Pcg.ofSeed 1) 1 = .ok p :=
    exists_passes (.inr (.inr le_rfl)) (by decide)
  exact ⟨valid_dot _, by decide,
    train_notReal hrows (fun _ _ => rfl) (by decide) hp (by decide) radius_dot⟩

end SoundAtlas.Network
