import Mathlib.Tactic.Lemma
import SoundAtlas.Index.ModelIndex

/-!
The building of indices and its watcher. What is built does not depend on who watches, as long as
they do not stop it; and whatever they keep to at every question and every look-up they have kept to
at the end.
-/

namespace SoundAtlas.ModelIndex

def quiet : BuildWatch Unit where
  poll w := (false, w)
  lookUp w := w

def withTrack (catalog : Catalog) (m : ModelIndex) (row : Int × PositionSet) :
    Except BuildError ModelIndex :=
  match catalog.release row.1, catalog.links row.1 with
  | .error e, _ => .error (.catalog e)
  | .ok _, .error e => .error (.catalog e)
  | .ok release, .ok links =>
    match m.addTrack row.1 ⟨release, links⟩ row.2 with
    | none => .error .noCell
    | some m => .ok m

variable {σ : Type} {catalog : Catalog} {watch : BuildWatch σ} {row : Int × PositionSet}
  {rows : List (Int × PositionSet)} {m index : ModelIndex} {w : σ}

lemma addTracks_cons : addTracks catalog watch (row :: rows) m w =
    if (watch.poll w).1 then (.ok none, (watch.poll w).2)
    else
      match withTrack catalog m row with
      | .error e => (.error e, watch.lookUp (watch.poll w).2)
      | .ok m => addTracks catalog watch rows m (watch.lookUp (watch.poll w).2) := by
  simp only [addTracks, withTrack]
  refine ite_congr rfl (fun _ => rfl) fun _ => ?_
  cases catalog.release row.1 with
  | error e => rfl
  | ok release =>
    cases catalog.links row.1 with
    | error e => rfl
    | ok links =>
      dsimp only
      cases m.addTrack row.1 ⟨release, links⟩ row.2 <;> rfl

/-- **Indices that were built under a watch are those that are built without one.** -/
lemma addTracks_quiet (h : (addTracks catalog watch rows m w).1 = .ok (some index)) :
    addTracks catalog quiet rows m () = (.ok (some index), ()) := by
  induction rows generalizing m w with
  | nil =>
    obtain rfl : m = index := by simpa [addTracks] using h
    rfl
  | cons row rest ih =>
    rw [addTracks_cons] at h ⊢
    rw [if_neg (by simp [quiet])]
    split at h
    · cases h
    · cases hn : withTrack catalog m row with
      | error e =>
        rw [hn] at h
        cases h
      | ok m' =>
        rw [hn] at h
        exact ih h

lemma addTracks_quiet_ne_none : (addTracks catalog quiet rows m ()).1 ≠ .ok none := by
  induction rows generalizing m with
  | nil => simp [addTracks]
  | cons row rest ih =>
    rw [addTracks_cons, if_neg (by simp [quiet])]
    cases withTrack catalog m row with
    | error e => simp
    | ok m' => exact ih

/-- **Indices that are built without a watch are built under any that does not stop it.** -/
lemma addTracks_of_quiet {P : σ → Prop}
    (hgo : ∀ w, P w → (watch.poll w).1 = false ∧ P (watch.lookUp (watch.poll w).2)) (hw : P w)
    (h : addTracks catalog quiet rows m () = (.ok (some index), ())) :
    (addTracks catalog watch rows m w).1 = .ok (some index) := by
  induction rows generalizing m w with
  | nil => exact congrArg Prod.fst h
  | cons row rest ih =>
    obtain ⟨hpoll, hnext⟩ := hgo w hw
    rw [addTracks_cons, if_neg (by simp [quiet])] at h
    rw [addTracks_cons, if_neg (by simp [hpoll])]
    cases hn : withTrack catalog m row with
    | error e =>
      rw [hn] at h
      cases h
    | ok m' =>
      rw [hn] at h
      exact ih hnext h

/-- **What a watcher keeps to** at every question and every look-up holds at the end. -/
lemma addTracks_watcher {P : σ → Prop} (hpoll : ∀ w, P w → P (watch.poll w).2)
    (hlook : ∀ w, P w → P (watch.lookUp w)) (hw : P w) :
    P (addTracks catalog watch rows m w).2 := by
  induction rows generalizing m w with
  | nil => exact hw
  | cons row rest ih =>
    have hasked : P (watch.lookUp (watch.poll w).2) := hlook _ (hpoll w hw)
    rw [addTracks_cons]
    split
    · exact hpoll w hw
    · cases withTrack catalog m row with
      | error e => exact hasked
      | ok m' => exact ih hasked

end SoundAtlas.ModelIndex
