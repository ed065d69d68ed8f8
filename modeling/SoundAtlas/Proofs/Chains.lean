import Mathlib.Data.List.Forall2
import Mathlib.Tactic.Lemma

/-!
Chains of steps that may fail. A chain succeeds if all its steps do, and fails at the first that
fails.
-/

namespace SoundAtlas

variable {α β ε ε' : Type} {xs : List α}

lemma bind_eq_ok {x : Except ε α} {f : α → Except ε β} {b : β} :
    (x >>= f) = .ok b ↔ ∃ a, x = .ok a ∧ f a = .ok b := by
  cases x with
  | error e => simp [bind, Except.bind]
  | ok a => simp [bind, Except.bind]

lemma bind_eq_error {x : Except ε α} {f : α → Except ε β} {e : ε} :
    (x >>= f) = .error e ↔ x = .error e ∨ ∃ a, x = .ok a ∧ f a = .error e := by
  cases x with
  | error e' => simp [bind, Except.bind]
  | ok a => simp [bind, Except.bind]

lemma map_eq_ok {x : Except ε α} {f : α → β} {b : β} :
    x.map f = .ok b ↔ ∃ a, x = .ok a ∧ f a = b := by
  cases x <;> simp [Except.map]

lemma mapError_eq_ok {x : Except ε α} {f : ε → ε'} {a : α} :
    x.mapError f = .ok a ↔ x = .ok a := by
  cases x <;> simp [Except.mapError]

lemma forM_eq_ok {f : α → Except ε Unit} : xs.forM f = .ok () ↔ ∀ x ∈ xs, f x = .ok () := by
  induction xs with
  | nil => simp [pure, Except.pure]
  | cons x xs ih =>
    change (f x >>= fun _ => xs.forM f) = .ok () ↔ _
    rw [bind_eq_ok, List.forall_mem_cons, ← ih]
    exact ⟨fun ⟨_, hx, hxs⟩ => ⟨hx, hxs⟩, fun ⟨hx, hxs⟩ => ⟨(), hx, hxs⟩⟩

lemma mapM_cons_eq {f : α → Except ε β} (x : α) (xs : List α) :
    (x :: xs).mapM f = f x >>= fun b => xs.mapM f >>= fun bs => .ok (b :: bs) := by
  rw [List.mapM_cons]
  rfl

/-- Steps that succeed on certain elements only, each with a result that is known. -/
lemma mapM_eq_ok {f : α → Except ε β} {p : α → Prop} {g : α → β} {ys : List β}
    (h : ∀ x ∈ xs, ∀ y, f x = .ok y ↔ p x ∧ y = g x) :
    xs.mapM f = .ok ys ↔ (∀ x ∈ xs, p x) ∧ ys = xs.map g := by
  induction xs generalizing ys with
  | nil => simp [pure, Except.pure, eq_comm]
  | cons x xs ih =>
    obtain ⟨hx, hxs⟩ := List.forall_mem_cons.1 h
    rw [mapM_cons_eq, List.forall_mem_cons, List.map_cons]
    constructor
    · intro hok
      obtain ⟨y, hy, hok⟩ := bind_eq_ok.1 hok
      obtain ⟨rest, hrest, hok⟩ := bind_eq_ok.1 hok
      obtain ⟨hp, rfl⟩ := (hx y).1 hy
      obtain ⟨hps, rfl⟩ := (ih hxs).1 hrest
      exact ⟨⟨hp, hps⟩, (Except.ok.inj hok).symm⟩
    · rintro ⟨⟨hp, hps⟩, rfl⟩
      rw [(hx _).2 ⟨hp, rfl⟩, (ih hxs).2 ⟨hps, rfl⟩]
      rfl

lemma mapM_eq_ok_iff_forall₂ {f : α → Except ε β} {ys : List β} :
    xs.mapM f = .ok ys ↔ List.Forall₂ (fun x y => f x = .ok y) xs ys := by
  induction xs generalizing ys with
  | nil => simp [pure, Except.pure, eq_comm]
  | cons x xs ih =>
    rw [mapM_cons_eq]
    simp only [bind_eq_ok, ih, List.forall₂_cons_left_iff, Except.ok.injEq]
    constructor
    · rintro ⟨y, hy, ys, hys, rfl⟩
      exact ⟨y, ys, hy, hys, rfl⟩
    · rintro ⟨y, ys, hy, hys, rfl⟩
      exact ⟨y, hy, ys, hys, rfl⟩

lemma exists_of_mapM_eq_ok {f : α → Except ε β} {ys : List β} (h : xs.mapM f = .ok ys) :
    ∀ x ∈ xs, ∃ y, f x = .ok y := by
  induction xs generalizing ys with
  | nil => exact nofun
  | cons x xs ih =>
    rw [mapM_cons_eq] at h
    obtain ⟨y, hy, h⟩ := bind_eq_ok.1 h
    obtain ⟨rest, hrest, -⟩ := bind_eq_ok.1 h
    exact List.forall_mem_cons.2 ⟨⟨y, hy⟩, ih hrest⟩

lemma mapM_eq_error {f : α → Except ε β} {e : ε} :
    xs.mapM f = .error e ↔ ∃ before x after, xs = before ++ x :: after ∧
      (∀ y ∈ before, ∃ z, f y = .ok z) ∧ f x = .error e := by
  induction xs with
  | nil =>
    constructor
    · intro h
      cases h
    · rintro ⟨before, x, after, h, -⟩
      simp at h
  | cons x xs ih =>
    rw [List.mapM_cons]
    constructor
    · intro h
      cases hx : f x with
      | error e' =>
        rw [hx] at h
        obtain rfl : e' = e := Except.error.inj h
        exact ⟨[], x, xs, rfl, nofun, hx⟩
      | ok z =>
        rw [hx] at h
        have hxs : xs.mapM f = .error e := by
          cases hm : xs.mapM f with
          | error e' =>
            rw [hm] at h
            exact h
          | ok zs =>
            rw [hm] at h
            cases h
        obtain ⟨before, y, after, rfl, hbefore, hy⟩ := ih.1 hxs
        exact ⟨x :: before, y, after, rfl, List.forall_mem_cons.2 ⟨⟨z, hx⟩, hbefore⟩, hy⟩
    · rintro ⟨_ | ⟨w, before⟩, y, after, h, hbefore, hy⟩
      · obtain ⟨rfl, rfl⟩ := List.cons.inj h
        rw [hy]
        rfl
      · obtain ⟨rfl, rfl⟩ := List.cons.inj h
        obtain ⟨⟨z, hz⟩, hbefore⟩ := List.forall_mem_cons.1 hbefore
        rw [hz, ih.2 ⟨before, y, after, rfl, hbefore, hy⟩]
        rfl

end SoundAtlas
