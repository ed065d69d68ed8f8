import Mathlib.Logic.Relation
import SoundAtlas.Proofs.Network.Arrays
import SoundAtlas.Proofs.Network.Passes

/-!
The life of a network. It is made with its sizes and keeps them whatever is asked of it. It is
trained once: training starts it on the way to being trained or aborted, and from then on nothing
but its weights can change. A request that is refused changes nothing at all, so the only trainings
that leave something half done are those that were broken off.
-/

namespace SoundAtlas.Network

open Relation

/-! ### Networks that can be made -/

/-- The networks that can be made, with the width, the height and the dimensions asked for. -/
inductive Made : ℤ → ℤ → ℤ → Network → Prop where
  | random {γ : Type} [Random.Source γ] {width height dimensions : ℤ} {s : Shape}
      (rate radius : Float) (g : γ) (hs : Shape.check width height dimensions = .ok s) :
      Made width height dimensions (Network.random s rate radius g).1
  | seeded {room : ℕ} {width height dimensions seed : ℤ} {rate radius : Float} {n : Network}
      {g : Random.Pcg}
      (hn : Network.seeded room width height dimensions rate radius seed = .ok (n, g)) :
      Made width height dimensions n
  | ofArrays {width height : ℤ} {rows dimensions : ℕ} {t : Tensor UInt64}
      {weights : Except Tensor.Error (Tensor UInt64)} {n : Network}
      (ht : t.shape = [rows, dimensions])
      (hn : Network.ofArrays width height (.ok t) weights = .ok n) :
      Made width height dimensions n

/-- A network of a width, a height and a number of dimensions: it has a reference vector for every
cell, and each of them has as many components as there are dimensions, and so have the weights. -/
structure Sized (width height dimensions : ℤ) (n : Network) : Prop where
  width_eq : (n.grid.width : ℤ) = width
  height_eq : (n.grid.height : ℤ) = height
  dimensions_eq : (n.dimensions : ℤ) = dimensions
  references : (n.references.toList.length : ℤ) = width * height
  components : ∀ v ∈ n.references.toList, (v.toList.length : ℤ) = dimensions
  weights : (n.weights.toList.length : ℤ) = dimensions

variable {width height dimensions : ℤ} {n n' : Network}

lemma sized_of_eq (hw : (n.grid.width : ℤ) = width) (hh : (n.grid.height : ℤ) = height)
    (hd : (n.dimensions : ℤ) = dimensions) : Sized width height dimensions n where
  width_eq := hw
  height_eq := hh
  dimensions_eq := hd
  references := by rw [Vector.length_toList, Grid.size, Nat.cast_mul, hw, hh]
  components v _ := by rw [Vector.length_toList, hd]
  weights := by rw [Vector.length_toList, hd]

lemma Sized.of_shape (h : Sized width height dimensions n) (hs : n'.toShape = n.toShape) :
    Sized width height dimensions n' :=
  sized_of_eq (by rw [hs]; exact h.width_eq) (by rw [hs]; exact h.height_eq)
    (by rw [hs]; exact h.dimensions_eq)

lemma seeded_eq_ok {room : ℕ} {seed : ℤ} {rate radius : Float} {g : Random.Pcg}
    (h : Network.seeded room width height dimensions rate radius seed = .ok (n, g)) :
    ∃ s, Shape.check width height dimensions = .ok s ∧
      (n, g) = Network.random s rate radius (Random.Pcg.ofSeed seed.toNat) := by
  unfold Network.seeded at h
  obtain ⟨s, hs, h⟩ := bind_eq_ok.1 h
  refine ⟨s, hs, ?_⟩
  by_cases hseed : seed < 0
  · rw [if_pos hseed] at h
    cases h
  · rw [if_neg hseed] at h
    obtain ⟨-, -, h⟩ := bind_eq_ok.1 h
    exact (Except.ok.inj h).symm

/-- **A network is made** with the sizes asked for, untrained or with a training behind it. -/
lemma Made.sized (h : Made width height dimensions n) :
    Sized width height dimensions n ∧ (n.state = .uninitialized ∨ n.state = .trained) := by
  cases h with
  | random rate radius g hs =>
    obtain ⟨hw, hh, hd⟩ := sizes_of_check hs
    exact ⟨sized_of_eq hw hh hd, .inl rfl⟩
  | seeded hn =>
    obtain ⟨s, hs, hrandom⟩ := seeded_eq_ok hn
    obtain ⟨hw, hh, hd⟩ := sizes_of_check hs
    obtain ⟨rfl, -⟩ := Prod.mk.inj hrandom
    exact ⟨sized_of_eq hw hh hd, .inl rfl⟩
  | ofArrays ht hn =>
    obtain ⟨hstate, hw, hh, t, -, hok, hshape, -⟩ := exists_of_ofArrays hn
    obtain rfl := Except.ok.inj hok
    have hd : n.dimensions = _ := (List.cons.inj (List.cons.inj (hshape.symm.trans ht)).2).1
    exact ⟨sized_of_eq hw hh (by rw [hd]), .inr hstate⟩

/-- The same network, with other weights at most. -/
def Reweighted (n n' : Network) : Prop :=
  ∃ weights, n' = { n with weights := weights }

lemma Reweighted.state (h : Reweighted n n') : n'.state = n.state := by
  obtain ⟨weights, rfl⟩ := h
  rfl

lemma Reweighted.trans {n'' : Network} (h : Reweighted n n') (h' : Reweighted n' n'') :
    Reweighted n n'' := by
  obtain ⟨weights, rfl⟩ := h
  obtain ⟨weights', rfl⟩ := h'
  exact ⟨weights', rfl⟩

/-! ### Requests -/

/-- Who is called during a training: whoever may stop it, and whoever hears of its progress. Either
may fail. -/
structure Callbacks (σ ε : Type) where
  /-- Whether to stop. -/
  cancelled : σ → Except ε Bool × σ
  /-- Hears that an iteration of so many begins. -/
  progress : ℕ → ℕ → σ → Except ε Unit × σ

namespace Callbacks

variable {σ ε : Type} (c : Callbacks σ ε)

/-- The callbacks as one watcher. Nothing happens between the question and the message, so a
question that has failed is kept until the message, which then fails in its place. -/
def watch : Watch (σ × Option ε) ε where
  poll w :=
    match c.cancelled w.1 with
    | (.ok stop, w') => (stop, w', none)
    | (.error e, w') => (false, w', some e)
  announce k count w :=
    match w.2 with
    | none => ((c.progress k count w.1).1, (c.progress k count w.1).2, none)
    | some e => (.error e, w)

/-- In a training of `count` iterations a callback has failed, and this is the world it has left. -/
def Raised (count : ℕ) (e : ε) (w : σ) : Prop :=
  (∃ w', c.cancelled w' = (.error e, w)) ∨ ∃ k < count, ∃ w', c.progress k count w' = (.error e, w)

lemma raised_of_announce {k count : ℕ} (hk : k < count) {e : ε} {w w' : σ × Option ε}
    (h : c.watch.announce k count (c.watch.poll w).2 = (.error e, w')) : c.Raised count e w'.1 := by
  rcases hpoll : c.cancelled w.1 with ⟨e' | stop, w₁⟩
  · have hasked : (c.watch.poll w).2 = (w₁, some e') := by
      simp only [watch, hpoll]
    rw [hasked] at h
    obtain ⟨he, rfl⟩ := Prod.mk.inj h
    obtain rfl := Except.error.inj he
    exact .inl ⟨w.1, hpoll⟩
  · have hasked : (c.watch.poll w).2 = (w₁, none) := by
      simp only [watch, hpoll]
    rw [hasked] at h
    obtain ⟨he, rfl⟩ := Prod.mk.inj h
    exact .inr ⟨k, hk, w₁, Prod.ext he rfl⟩

end Callbacks

inductive Request (σ ε : Type) where
  | setWeights (weights : Except Tensor.Error (Tensor UInt64))
  | train (samples : Except Tensor.Error Tensor) (count : ℤ) (callbacks : Callbacks σ ε)
  | closest (v : Except Tensor.Error Tensor)
  | distance (a b : Position)

inductive Answer where
  | done
  | ended (state : State)
  | position (p : Position)
  | distance (d : Float)

/-- A network with the generator that it shuffles its samples with, and the world of those who are
called during a training. -/
structure Bench (γ σ : Type) where
  network : Network
  generator : γ
  world : σ

/-! ### Effects -/

section Effects

variable {γ σ ε : Type}

inductive Effect (b : Bench γ σ) (request : Request σ ε) :
    Except (TrainError ε) Answer → Bench γ σ → Prop where
  /-- It is refused. -/
  | refused (e : Error) : Effect b request (.error (.network e)) b
  /-- It is answered from what is there. -/
  | answered (a : Answer) : Effect b request (.ok a) b
  | weighted (weights : b.network.Stored) :
    Effect b request (.ok .done) { b with network := { b.network with weights := weights } }
  /-- A training is carried out, as far as it goes. -/
  | ran (ending : Ending ε) (references : b.network.References) (g : γ) (w : σ)
    (huntrained : b.network.state = .uninitialized)
    (htrain : ∃ samples count callbacks, request = .train samples count callbacks ∧
      ∀ e, ending = .watcher e → callbacks.Raised count.toNat e w)
    (harithmetic : ∀ e, ending = .arithmetic e → b.network.finalRadius < 0.0) :
    Effect b request (ending.result.2.map .ended)
      ⟨{ b.network with references := references, state := ending.result.1 }, g, w⟩

/-- The only moves from one state to another. -/
inductive State.Move : State → State → Prop where
  | begins : Move .uninitialized .training
  | finishes : Move .training .trained
  | aborts : Move .training .aborted

lemma Ending.moves (ending : Ending ε) :
    ReflTransGen State.Move .uninitialized ending.result.1 := by
  have hbegins : ReflTransGen State.Move .uninitialized .training := .single .begins
  cases ending with
  | finished => exact hbegins.tail .finishes
  | cancelled => exact hbegins.tail .aborts
  | watcher e => exact hbegins
  | arithmetic e => exact hbegins

/-- A training is broken off: a callback has failed, or the final radius is negative and the
schedule has no value. -/
def Request.BrokenOff (request : Request σ ε) (radius : Float) (e : TrainError ε) (w : σ) : Prop :=
  ∃ samples count callbacks, request = .train samples count callbacks ∧
    ((∃ e', e = .watcher e' ∧ callbacks.Raised count.toNat e' w) ∨
      radius < 0.0 ∧ ∃ e', e = .network (.arithmetic e'))

namespace Effect

variable {b b' : Bench γ σ} {request : Request σ ε} {r : Except (TrainError ε) Answer}

lemma shape (h : Effect b request r b') : b'.network.toShape = b.network.toShape := by
  cases h <;> rfl

lemma finalRadius (h : Effect b request r b') :
    b'.network.finalRadius = b.network.finalRadius := by
  cases h <;> rfl

lemma moves (h : Effect b request r b') :
    ReflTransGen State.Move b.network.state b'.network.state := by
  cases h with
  | refused | answered | weighted => exact .refl
  | ran ending _ _ _ huntrained =>
    rw [huntrained]
    exact ending.moves

/-- A network that has been trained, whatever has come of it, only takes other weights. -/
lemma settled (h : Effect b request r b') (hstate : b.network.state ≠ .uninitialized) :
    Reweighted b.network b'.network := by
  cases h with
  | refused => exact ⟨_, rfl⟩
  | answered => exact ⟨_, rfl⟩
  | weighted weights => exact ⟨weights, rfl⟩
  | ran _ _ _ _ huntrained => exact absurd huntrained hstate

/-- An error leaves everything as it was, unless a training has been broken off. -/
lemma error {e : TrainError ε} (h : Effect b request (.error e) b') :
    b' = b ∨ request.BrokenOff b.network.finalRadius e b'.world := by
  generalize hr : (.error e : Except (TrainError ε) Answer) = r at h
  cases h with
  | refused => exact .inl rfl
  | answered => cases hr
  | weighted => cases hr
  | ran ending references g w huntrained htrain harithmetic =>
    obtain ⟨samples, count, callbacks, hrequest, hwatcher⟩ := htrain
    refine .inr ⟨samples, count, callbacks, hrequest, ?_⟩
    cases ending with
    | finished => cases hr
    | cancelled => cases hr
    | watcher e' => exact .inl ⟨e', Except.error.inj hr, hwatcher e' rfl⟩
    | arithmetic e' => exact .inr ⟨harithmetic e' rfl, e', Except.error.inj hr⟩

lemma training (h : Effect b request r b') (hafter : b'.network.state = .training)
    (hbefore : b.network.state ≠ .training) :
    ∃ e, r = .error e ∧ request.BrokenOff b.network.finalRadius e b'.world := by
  have hbroken : ∃ e, r = .error e := by
    cases h with
    | refused e => exact ⟨_, rfl⟩
    | answered => exact absurd hafter hbefore
    | weighted => exact absurd hafter hbefore
    | ran ending =>
      cases ending with
      | finished => cases hafter
      | cancelled => cases hafter
      | watcher e => exact ⟨_, rfl⟩
      | arithmetic e => exact ⟨_, rfl⟩
  obtain ⟨e, rfl⟩ := hbroken
  obtain rfl | hoff := h.error
  · exact absurd hafter hbefore
  · exact ⟨e, rfl, hoff⟩

end Effect

end Effects

/-! ### Questions -/

/-- **The closest position** is told by a trained network, of vectors that have as many components
as it has dimensions. -/
lemma exists_closestPosition {v : Except Tensor.Error Tensor} :
    (∃ p, n.closestPosition v = .ok p) ↔
      n.state = .trained ∧ ∃ t, v = .ok t ∧ t.shape = [n.dimensions] := by
  simp only [closestPosition, bind_eq_ok, requireTrained, checkVector, requireArray, mapError_eq_ok]
  constructor
  · rintro ⟨p, ⟨⟩, htrained, sample, ⟨t, ht, hsample⟩, -⟩
    refine ⟨?_, t, ht, ?_⟩
    · by_contra hstate
      rw [if_neg hstate] at htrained
      cases htrained
    · by_contra hshape
      rw [Tensor.vector?, dif_neg hshape] at hsample
      cases hsample
  · rintro ⟨htrained, t, ht, hshape⟩
    obtain ⟨sample, hsample⟩ : ∃ sample, t.vector? n.dimensions = some sample :=
      ⟨_, dif_pos hshape⟩
    rw [if_pos htrained]
    refine ⟨_, (), rfl, sample, ⟨t, ht, ?_⟩, rfl⟩
    rw [hsample]
    rfl

lemma exists_cellAt {p : Position} : (∃ c, n.cellAt p = .ok c) ↔ n.grid.Contains p := by
  rw [cellAt, Grid.cell?]
  by_cases hp : n.grid.Contains p
  · rw [dif_pos hp]
    exact ⟨fun _ => hp, fun _ => ⟨_, rfl⟩⟩
  · rw [dif_neg hp]
    exact ⟨nofun, fun h => absurd h hp⟩

/-- **A distance** is told by a trained network, between positions on its grid. -/
lemma exists_distance {p q : Position} :
    (∃ d, n.distance p q = .ok d) ↔
      n.state = .trained ∧ n.grid.Contains p ∧ n.grid.Contains q := by
  rw [← exists_cellAt, ← exists_cellAt]
  simp only [distance, bind_eq_ok, requireTrained]
  constructor
  · rintro ⟨d, ⟨⟩, htrained, c, hc, c', hc', -⟩
    refine ⟨?_, ⟨c, hc⟩, c', hc'⟩
    by_contra hstate
    rw [if_neg hstate] at htrained
    cases htrained
  · rintro ⟨htrained, ⟨c, hc⟩, c', hc'⟩
    rw [if_pos htrained]
    exact ⟨_, (), rfl, c, hc, c', hc', rfl⟩

/-! ### One request -/

section Run

variable {γ σ ε : Type} [Random.Source γ]

def Request.run (b : Bench γ σ) : Request σ ε → Except (TrainError ε) Answer × Bench γ σ
  | .setWeights weights =>
    match b.network.setWeights weights with
    | .ok n => (.ok .done, { b with network := n })
    | .error e => (.error (.network e), b)
  | .train samples count callbacks =>
    let t := b.network.train samples count callbacks.watch b.generator (b.world, none)
    (t.result.map .ended, ⟨t.network, t.generator, t.watcher.1⟩)
  | .closest v => (((b.network.closestPosition v).map .position).mapError .network, b)
  | .distance p q => (((b.network.distance p q).map .distance).mapError .network, b)

def Request.runAll (requests : List (Request σ ε)) (b : Bench γ σ) : Bench γ σ :=
  requests.foldl (fun b request => (request.run b).2) b

/-- **One iteration** is the last, because it is cancelled, because a message has failed or because,
with a negative final radius, there is no radius for it, or the next one follows. -/
lemma iterate_cases (rows : Array n.Sample) (watch : Watch σ ε) {count left : ℕ}
    (references : n.References) (g : γ) (w : σ) (hleft : left < count) :
    let course := n.iterate rows watch count (left + 1) references g w
    let told := watch.announce (count - (left + 1)) count (watch.poll w).2
    course.ending = .cancelled ∨
      (∃ e, told.1 = .error e ∧ course.ending = .watcher e ∧ course.watcher = told.2) ∨
      (n.finalRadius < 0.0 ∧ ∃ e, course.ending = .arithmetic e) ∨
      ∃ references' g', course = n.iterate rows watch count left references' g' told.2 := by
  intro course told
  have hlt : ((count - (left + 1) : ℕ) : ℤ) < count := by omega
  obtain ⟨rate, hrate⟩ := exists_learningRate (n := n) (Int.natCast_nonneg _) hlt
  by_cases hpoll : (watch.poll w).1 = true
  · left
    simp only [course, iterate, hpoll, if_true]
  · right
    simp only [course, iterate, hpoll, Bool.false_eq_true, if_false, hrate]
    cases htold : told.1 with
    | error e => exact .inl ⟨e, rfl, rfl, rfl⟩
    | ok =>
      right
      by_cases hreal : n.finalRadius < 0.0
      · cases n.radius (count - (left + 1) : ℕ) count with
        | ok radius => exact .inr ⟨_, _, rfl⟩
        | error e => cases e <;> exact .inl ⟨hreal, _, rfl⟩
      · obtain ⟨radius, hradius⟩ := exists_radius (.inl hreal) (Int.natCast_nonneg _) hlt
        rw [hradius]
        exact .inr ⟨_, _, rfl⟩

/-- How a run of iterations is broken off: a message has failed, or there is no radius. -/
lemma iterate_broken {rows : Array n.Sample} {watch : Watch σ ε} {count left : ℕ}
    {references : n.References} {g : γ} {w : σ} {course : Course n.toShape γ σ ε}
    (hcourse : n.iterate rows watch count left references g w = course) (hleft : left ≤ count) :
    (∀ e, course.ending = .watcher e →
      ∃ k < count, ∃ w', watch.announce k count (watch.poll w').2 = (.error e, course.watcher)) ∧
    ∀ e, course.ending = .arithmetic e → n.finalRadius < 0.0 := by
  induction left generalizing references g w with
  | zero =>
    obtain rfl := hcourse
    exact ⟨nofun, nofun⟩
  | succ left ih =>
    have hcases := iterate_cases rows watch references g w hleft
    rw [hcourse] at hcases
    obtain hend | ⟨e, htold, hend, hwatcher⟩ | ⟨hreal, e, hend⟩ | ⟨references', g', hrest⟩ := hcases
    · rw [hend]
      exact ⟨nofun, nofun⟩
    · rw [hend, hwatcher]
      refine ⟨fun e' he' => ?_, nofun⟩
      obtain rfl := Ending.watcher.inj he'
      exact ⟨count - (left + 1), by omega, w, Prod.ext htold rfl⟩
    · rw [hend]
      exact ⟨nofun, fun _ _ => hreal⟩
    · exact ih hrest.symm (Nat.le_of_succ_le hleft)

lemma effect_run (b : Bench γ σ) (request : Request σ ε) :
    Effect b request (request.run b).1 (request.run b).2 := by
  cases request with
  | setWeights weights =>
    simp only [Request.run]
    cases hset : b.network.setWeights weights with
    | error e => exact .refused e
    | ok n =>
      obtain ⟨-, w, -, -, rfl⟩ := setWeights_eq_ok.1 hset
      exact .weighted w
  | train samples count callbacks =>
    simp only [Request.run]
    cases hrows : b.network.trainingSamples samples count with
    | error e =>
      simp only [train, hrows]
      exact .refused e
    | ok rows =>
      rw [train_eq hrows]
      have huntrained := (exists_trainingSamples.1 ⟨rows, hrows⟩).untrained
      have hcourse : b.network.iterate rows callbacks.watch count.toNat count.toNat
        b.network.references b.generator (b.world, none) = _ := rfl
      obtain ⟨hwatcher, harithmetic⟩ := iterate_broken hcourse le_rfl
      refine .ran _ _ _ _ huntrained ⟨samples, count, callbacks, rfl, fun e he => ?_⟩ harithmetic
      obtain ⟨k, hk, w', htold⟩ := hwatcher e he
      exact callbacks.raised_of_announce hk htold
  | closest v =>
    simp only [Request.run]
    cases b.network.closestPosition v with
    | error e => exact .refused e
    | ok p => exact .answered _
  | distance p q =>
    simp only [Request.run]
    cases b.network.distance p q with
    | error e => exact .refused e
    | ok d => exact .answered _

/-! ### Many requests -/

section Many

variable {b : Bench γ σ} {requests : List (Request σ ε)}

/-- **Whatever is asked for**, the sizes and the final radius stay, and the state only
makes moves. -/
lemma runAll_moves :
    (Request.runAll requests b).network.toShape = b.network.toShape ∧
      (Request.runAll requests b).network.finalRadius = b.network.finalRadius ∧
      ReflTransGen State.Move b.network.state (Request.runAll requests b).network.state := by
  induction requests generalizing b with
  | nil => exact ⟨rfl, rfl, .refl⟩
  | cons request requests ih =>
    have heffect := effect_run b request
    obtain ⟨hshape, hradius, hmoves⟩ := ih (b := (request.run b).2)
    exact ⟨hshape.trans heffect.shape, hradius.trans heffect.finalRadius,
      heffect.moves.trans hmoves⟩

/-- **A training is the only one**: after it, only the weights change. -/
lemma runAll_settled (hstate : b.network.state ≠ .uninitialized) :
    Reweighted b.network (Request.runAll requests b).network := by
  induction requests generalizing b with
  | nil => exact ⟨_, rfl⟩
  | cons request requests ih =>
    have hfirst := (effect_run b request).settled hstate
    exact hfirst.trans (ih (b := (request.run b).2) (by rw [hfirst.state]; exact hstate))

/-- **The life of a network.** Whatever is asked of it after it has been made, it has a reference
vector for every cell and has kept the dimensions. Its state has only made the moves that there are.
From the first training on its state and its reference vectors stay as they are. It answers a
question when it is trained and the question fits, and an error leaves everything as it was, unless
a training has been broken off. Only such a training has left it in training. -/
theorem requests_keep_life_cycle {γ σ ε : Type} [Random.Source γ] {width height dimensions : ℤ}
    {n : Network} (hn : Made width height dimensions n) (g : γ) (world : σ)
    (requests : List (Request σ ε)) :
    let b := Request.runAll requests ⟨n, g, world⟩
    Sized width height dimensions b.network ∧
    (n.state = .uninitialized ∨ n.state = .trained) ∧
    ReflTransGen State.Move n.state b.network.state ∧
    (b.network.state ≠ .uninitialized → ∀ later : List (Request σ ε),
      Reweighted b.network (Request.runAll later b).network) ∧
    (∀ v, (∃ a, ((Request.closest v : Request σ ε).run b).1 = .ok a) ↔
      b.network.state = .trained ∧ ∃ t, v = .ok t ∧ t.shape = [b.network.dimensions]) ∧
    (∀ p q, (∃ a, ((Request.distance p q : Request σ ε).run b).1 = .ok a) ↔
      b.network.state = .trained ∧ b.network.grid.Contains p ∧ b.network.grid.Contains q) ∧
    ∀ request : Request σ ε, let r := request.run b
      ReflTransGen State.Move b.network.state r.2.network.state ∧
      (∀ e, r.1 = .error e → r.2 = b ∨ request.BrokenOff n.finalRadius e r.2.world) ∧
      (r.2.network.state = .training → b.network.state ≠ .training →
        ∃ e, r.1 = .error e ∧ request.BrokenOff n.finalRadius e r.2.world) := by
  intro b
  obtain ⟨hsized, hstate⟩ := hn.sized
  obtain ⟨hshape, hradius, hmoves⟩ : b.network.toShape = n.toShape ∧
      b.network.finalRadius = n.finalRadius ∧ ReflTransGen State.Move n.state b.network.state :=
    runAll_moves
  refine ⟨hsized.of_shape hshape, hstate, hmoves, fun hsettled later => runAll_settled hsettled,
    fun v => ?_, fun p q => ?_, fun request => ?_⟩
  · rw [← exists_closestPosition]
    cases hv : b.network.closestPosition v with
    | error e => simp [Request.run, hv, Except.map, Except.mapError]
    | ok p => simp [Request.run, hv, Except.map, Except.mapError]
  · rw [← exists_distance]
    cases hd : b.network.distance p q with
    | error e => simp [Request.run, hd, Except.map, Except.mapError]
    | ok d => simp [Request.run, hd, Except.map, Except.mapError]
  · intro r
    have heffect : Effect b request r.1 r.2 := effect_run b request
    rw [← hradius]
    refine ⟨heffect.moves, fun e he => ?_, heffect.training⟩
    rw [he] at heffect
    exact heffect.error

end Many

end Run

/-! ### A network of one cell -/

/-- Callbacks that never stop a training and never fail. -/
def patient : Callbacks Unit Empty where
  cancelled w := (.ok false, w)
  progress _ _ w := (.ok (), w)

/-- A network of one cell as it is drawn, with the generator that is left, before a training. -/
def dotBench (radius : Float) : Bench Random.Pcg Unit :=
  let drawn := Network.random dot defaultRate radius (Random.Pcg.ofSeed 1)
  ⟨drawn.1, drawn.2, ()⟩

lemma made_dotBench (radius : Float) : Made 1 1 1 (dotBench radius).network :=
  .random defaultRate radius (Random.Pcg.ofSeed 1) rfl

lemma valid_dotBench (radius : Float) : Valid (dotBench radius).network dotSamples 3 :=
  ⟨rfl, by decide, _, 1, rfl, by decide, rfl⟩

theorem requests_keep_life_cycle_dot :
    let b :=
      Request.runAll [.train dotSamples 3 patient, .train dotSamples 3 patient] (dotBench 0.5)
    Made 1 1 1 (dotBench 0.5).network ∧ Sized 1 1 1 b.network ∧
      ∀ e, ((Request.train dotSamples 3 patient).run b).1 = .error e →
        ((Request.train dotSamples 3 patient).run b).2 = b := by
  intro b
  have hlife := requests_keep_life_cycle (made_dotBench 0.5) (dotBench 0.5).generator ()
    [.train dotSamples 3 patient, .train dotSamples 3 patient]
  obtain ⟨hsized, -, -, -, -, -, hall⟩ := hlife
  refine ⟨made_dotBench 0.5, hsized, fun e he => ?_⟩
  obtain hsame | ⟨-, -, -, -, ⟨e', -⟩ | ⟨hreal, -⟩⟩ := (hall (.train dotSamples 3 patient)).2.1 e he
  · exact hsame
  · exact e'.elim
  · exact absurd hreal (by decide +kernel)

lemma radius_dotBench : (dotBench (-0.5)).network.radius 1 3 = .error .notReal := by
  have hgrid : (dotBench (-0.5)).network.grid = (dotNetwork (-0.5)).grid := rfl
  have hfinal : (dotBench (-0.5)).network.finalRadius = (dotNetwork (-0.5)).finalRadius := rfl
  rw [← radius_dot, radius, radius, startRadius, startRadius, hgrid, hfinal]

/-- With a negative final radius a training fails though no callback does, and leaves the network in
training. -/
theorem training_left_by_negative_radius :
    let b := dotBench (-0.5)
    let r := (Request.train dotSamples 3 patient).run b
    Made 1 1 1 b.network ∧ (∃ e, r.1 = .error (.network e)) ∧ r.2.network.state = .training := by
  intro b r
  obtain ⟨rows, hrows⟩ := exists_trainingSamples.2 (valid_dotBench (-0.5))
  obtain ⟨p, hp⟩ : ∃ p, b.network.passes rows 3 b.generator 1 = .ok p :=
    exists_passes (.inr (.inr le_rfl)) (by decide)
  have hheard : ∀ k, heard patient.watch 3 ((), none) k = ((), none) := fun k =>
    Subsingleton.elim _ _
  have htold : ∀ k (w : Unit × Option Empty), (patient.watch.announce k 3 w).1 = .ok () := by
    rintro k ⟨-, _ | e⟩
    · rfl
    · exact e.elim
  have hpoll : ∀ j ≤ 1, (patient.watch.poll (heard patient.watch 3 ((), none) j)).1 = false := by
    intro j _
    rw [hheard]
    rfl
  obtain ⟨hresult, hstate⟩ := train_notReal (w := ((), none)) hrows htold (by decide) hp hpoll
    radius_dotBench
  refine ⟨made_dotBench _, ⟨.arithmetic .notReal, ?_⟩, hstate⟩
  change (Except.map Answer.ended _) = _
  rw [hresult]
  rfl

end SoundAtlas.Network
