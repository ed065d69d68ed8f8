import Mathlib.Tactic.Lemma
import SoundAtlas.Network.Training

/-!
Training and its watcher: whatever they keep to at every question and every message they have kept
to at the end, and unless they stop it, it is the same training whoever watches.
-/

namespace SoundAtlas.Network

variable {γ σ ε : Type} [Random.Source γ] {n : Network} {watch : Watch σ ε} {P : σ → Prop} {w : σ}

lemma iterate_watcher (hpoll : ∀ w, P w → P (watch.poll w).2)
    (hann : ∀ k count w, P w → P (watch.announce k count w).2) (samples : Array n.Sample)
    (count left : Nat) (references : n.References) (g : γ) (hw : P w) :
    P (n.iterate samples watch count left references g w).watcher := by
  induction left generalizing references g w with
  | zero => exact hw
  | succ left ih =>
    have hasked : P (watch.poll w).2 := hpoll w hw
    have htold := hann (count - (left + 1)) count _ hasked
    simp only [iterate]
    split
    · exact hasked
    · split
      · exact htold
      · split
        · exact ih _ _ htold
        · exact htold
        · exact htold
        · exact htold

/-- **What a watcher keeps to** at every question and every message holds at the end. -/
lemma train_watcher (hpoll : ∀ w, P w → P (watch.poll w).2)
    (hann : ∀ k count w, P w → P (watch.announce k count w).2)
    (samples : Except Tensor.Error Tensor) (count : Int) (g : γ) (hw : P w) :
    P (n.train samples count watch g w).watcher := by
  unfold train
  split
  · exact hw
  · exact iterate_watcher hpoll hann _ _ _ _ _ hw

lemma toShape_train (samples : Except Tensor.Error Tensor) (count : Int) (g : γ) :
    (n.train samples count watch g w).network.toShape = n.toShape := by
  unfold train
  split <;> rfl

lemma iterate_cancelled {samples : Array n.Sample} {count left : Nat} {references : n.References}
    {g : γ} (h : (n.iterate samples watch count left references g w).ending = .cancelled) :
    ∃ w', (watch.poll w').1 = true ∧
      (n.iterate samples watch count left references g w).watcher = (watch.poll w').2 := by
  induction left generalizing references g w with
  | zero => simp [iterate] at h
  | succ left ih =>
    simp only [iterate] at h ⊢
    split at h
    · rename_i hpoll
      rw [if_pos hpoll]
      exact ⟨w, hpoll, rfl⟩
    · rename_i hpoll
      rw [if_neg hpoll]
      split at h
      · simp at h
      · split at h
        · exact ih h
        all_goals simp at h

section Two

variable {σ' : Type} {watch' : Watch σ' ε} {w' : σ'}

/-- **Two watchers who answer every message alike** see the same run of iterations, unless one of
them cancels it. -/
lemma iterate_agree
    (hann : ∀ k count w w', (watch.announce k count w).1 = (watch'.announce k count w').1)
    (samples : Array n.Sample) (count left : Nat) (references : n.References) (g : γ) (w : σ)
    (w' : σ') :
    let c := n.iterate samples watch count left references g w
    let c' := n.iterate samples watch' count left references g w'
    c.ending = .cancelled ∨ c'.ending = .cancelled ∨
      (c.ending = c'.ending ∧ c.references = c'.references ∧ c.generator = c'.generator) := by
  intro c c'
  induction left generalizing references g w w' with
  | zero => exact .inr (.inr ⟨rfl, rfl, rfl⟩)
  | succ left ih =>
    simp only [c, c', iterate]
    by_cases hpoll : (watch.poll w).1 = true
    · rw [if_pos hpoll]
      exact .inl rfl
    by_cases hpoll' : (watch'.poll w').1 = true
    · rw [if_pos hpoll']
      exact .inr (.inl rfl)
    rw [if_neg hpoll, if_neg hpoll', ← hann _ _ (watch.poll w).2]
    split
    · exact .inr (.inr ⟨rfl, rfl, rfl⟩)
    · split
      · exact ih _ _ _ _
      all_goals exact .inr (.inr ⟨rfl, rfl, rfl⟩)

/-- **Two watchers who answer every message alike** see the same training, unless one of them stops
it. -/
lemma train_agree
    (hann : ∀ k count w w', (watch.announce k count w).1 = (watch'.announce k count w').1)
    (samples : Except Tensor.Error Tensor) (count : Int) (g : γ) (w : σ) (w' : σ') :
    let t := n.train samples count watch g w
    let t' := n.train samples count watch' g w'
    t.result = .ok .aborted ∨ t'.result = .ok .aborted ∨
      (t.result = t'.result ∧ t.network = t'.network ∧ t.generator = t'.generator) := by
  intro t t'
  simp only [t, t', train]
  split
  · exact .inr (.inr ⟨rfl, rfl, rfl⟩)
  · rename_i samples _
    obtain h | h | ⟨hend, href, hgen⟩ :=
      iterate_agree hann samples count.toNat count.toNat n.references g w w'
    · exact .inl (by rw [h]; rfl)
    · exact .inr (.inl (by rw [h]; rfl))
    · exact .inr (.inr ⟨by rw [hend], by rw [hend, href], hgen⟩)

end Two

lemma Ending.cancelled_of_result {ending : Ending ε} (h : ending.result.2 = .ok .aborted) :
    ending = .cancelled := by
  cases ending with
  | cancelled => rfl
  | _ => simp [Ending.result] at h

lemma train_aborted {samples : Except Tensor.Error Tensor} {count : Int} {g : γ}
    (h : (n.train samples count watch g w).result = .ok .aborted) :
    (n.train samples count watch g w).network.state = .aborted ∧
      ∃ w', (watch.poll w').1 = true ∧
        (n.train samples count watch g w).watcher = (watch.poll w').2 := by
  unfold train at h ⊢
  split at h
  · simp at h
  · rename_i samples _
    have hend : (n.iterate samples watch count.toNat count.toNat n.references g w).ending =
        .cancelled := Ending.cancelled_of_result h
    exact ⟨by dsimp only; rw [hend]; rfl, iterate_cancelled hend⟩

end SoundAtlas.Network
