import Mathlib.Tactic.Tauto
import SoundAtlas.Cache.Store
import SoundAtlas.Proofs.Chains

/-!
Failures that reading a cache does not tolerate. A version is loaded in a chain of steps; a chain
fails like this if one of its steps does and all steps before that succeed.
-/

namespace SoundAtlas.Cache

variable {α β : Type}

/-- A step fails in a way that reading does not tolerate. -/
def Escapes (x : Except LoadError α) : Prop :=
  ∃ e, x = .error e ∧ ModelCache.isTolerated e = false

/-! ### Chains of steps -/

lemma not_escapes_ok (a : α) : ¬ Escapes (.ok a : Except LoadError α) := by
  rintro ⟨e, he, -⟩
  cases he

lemma escapes_error {e : LoadError} :
    Escapes (.error e : Except LoadError α) ↔ ModelCache.isTolerated e = false := by
  constructor
  · rintro ⟨e', he, h⟩
    cases he
    exact h
  · exact fun h => ⟨e, rfl, h⟩

lemma escapes_bind {x : Except LoadError α} {f : α → Except LoadError β} :
    Escapes (x >>= f) ↔ Escapes x ∨ ∃ a, x = .ok a ∧ Escapes (f a) := by
  cases x with
  | error e =>
    change Escapes (.error e : Except LoadError β) ↔ _
    rw [escapes_error, escapes_error]
    simp
  | ok a =>
    change Escapes (f a) ↔ _
    simp [not_escapes_ok]

/-- A bad element of a list, after good ones only. -/
def Reaches (good bad : α → Prop) (xs : List α) : Prop :=
  ∃ before x after, xs = before ++ x :: after ∧ (∀ y ∈ before, good y) ∧ bad x

section Reaches

variable {good bad : α → Prop}

lemma not_reaches_nil : ¬ Reaches good bad [] := by
  rintro ⟨before, x, after, h, -⟩
  simp at h

lemma reaches_cons {x : α} {xs : List α} :
    Reaches good bad (x :: xs) ↔ bad x ∨ good x ∧ Reaches good bad xs := by
  constructor
  · rintro ⟨before, y, after, h, hb, hy⟩
    cases before with
    | nil =>
      obtain ⟨rfl, -⟩ := List.cons.inj h
      exact Or.inl hy
    | cons b before =>
      obtain ⟨rfl, rfl⟩ := List.cons.inj h
      obtain ⟨hb0, hbs⟩ := List.forall_mem_cons.1 hb
      exact Or.inr ⟨hb0, before, y, after, rfl, hbs, hy⟩
  · rintro (h | ⟨hx, before, y, after, rfl, hb, hy⟩)
    · exact ⟨[], x, xs, rfl, by simp, h⟩
    · exact ⟨x :: before, y, after, rfl, List.forall_mem_cons.2 ⟨hx, hb⟩, hy⟩

end Reaches

/-- **The first step over a list that fails** decides whether the failure is tolerated. -/
lemma escapes_forM {xs : List α} {f : α → Except LoadError Unit} :
    Escapes (xs.forM f) ↔ Reaches (fun x => f x = .ok ()) (fun x => Escapes (f x)) xs := by
  induction xs with
  | nil => exact iff_of_false (not_escapes_ok ()) not_reaches_nil
  | cons x xs ih =>
    change Escapes (f x >>= fun _ => xs.forM f) ↔ _
    rw [escapes_bind, reaches_cons, ← ih]
    exact or_congr_right ⟨fun ⟨_, hx, h⟩ => ⟨hx, h⟩, fun ⟨hx, h⟩ => ⟨(), hx, h⟩⟩

lemma not_escapes_invalid (v : Violation) :
    ¬ Escapes (throw (.invalid v) : Except LoadError α) := by
  rintro ⟨e, he, h⟩
  obtain rfl := Except.error.inj he
  cases h

lemma escapes_check {p : Prop} [Decidable p] {v : Violation} {rest : Unit → Except LoadError α} :
    Escapes (if p then throw (.invalid v) >>= rest else rest ()) ↔ ¬ p ∧ Escapes (rest ()) := by
  split
  · rename_i hp
    refine iff_of_false ?_ fun h => h.1 hp
    exact not_escapes_invalid (α := α) v
  · rename_i hp
    exact ⟨fun h => ⟨hp, h⟩, And.right⟩

lemma not_escapes_check {p : Prop} [Decidable p] {v : Violation} {a : α} :
    ¬ Escapes (if p then throw (.invalid v) else pure a) := by
  split
  · exact not_escapes_invalid v
  · exact not_escapes_ok a

lemma check_eq_ok {p : Prop} [Decidable p] {e : LoadError} {rest : Unit → Except LoadError α}
    {a : α} : (if p then throw e >>= rest else rest ()) = .ok a ↔ ¬ p ∧ rest () = .ok a := by
  split
  · rename_i hp
    exact iff_of_false (fun h => by cases h) fun h => h.1 hp
  · rename_i hp
    exact ⟨fun h => ⟨hp, h⟩, And.right⟩

lemma last_check_eq_ok {p : Prop} [Decidable p] {e : LoadError} {a b : α} :
    (if p then throw e else pure a : Except LoadError α) = .ok b ↔ ¬ p ∧ a = b := by
  split
  · rename_i hp
    exact iff_of_false (fun h => by cases h) fun h => h.1 hp
  · rename_i hp
    exact ⟨fun h => ⟨hp, Except.ok.inj h⟩, fun h => congrArg Except.ok h.2⟩

/-! ### Steps that look at the shape of a document -/

/-- A step that looks at the shape of a document fails in a way that is not tolerated. -/
abbrev ShapeEscapes (x : Except Json.ReadError α) : Prop :=
  Escapes (shaped x)

lemma shaped_eq_ok {x : Except Json.ReadError α} {a : α} : shaped x = .ok a ↔ x = .ok a := by
  cases x <;> simp [shaped, Except.mapError]

lemma shaped_bind (x : Except Json.ReadError α) (f : α → Except Json.ReadError β) :
    shaped (x >>= f) = shaped x >>= fun a => shaped (f a) := by
  cases x <;> rfl

lemma shapeEscapes_bind {x : Except Json.ReadError α} {f : α → Except Json.ReadError β} :
    ShapeEscapes (x >>= f) ↔ ShapeEscapes x ∨ ∃ a, x = .ok a ∧ ShapeEscapes (f a) := by
  rw [ShapeEscapes, shaped_bind, escapes_bind]
  simp only [shaped_eq_ok]

lemma shapeEscapes_error {e : Json.ReadError} :
    ShapeEscapes (.error e : Except Json.ReadError α) ↔ e = .notObject ∨ e = .infiniteInteger := by
  change Escapes (.error (.shape e) : Except LoadError α) ↔ _
  rw [escapes_error]
  cases e <;> simp [ModelCache.isTolerated]

lemma not_shapeEscapes_ok (a : α) : ¬ ShapeEscapes (.ok a : Except Json.ReadError α) :=
  not_escapes_ok a

lemma shapeEscapes_mapM {xs : List α} {f : α → Except Json.ReadError β} :
    ShapeEscapes (xs.mapM f) ↔
      Reaches (fun x => ∃ b, f x = .ok b) (fun x => ShapeEscapes (f x)) xs := by
  induction xs with
  | nil => exact iff_of_false (not_escapes_ok []) not_reaches_nil
  | cons x xs ih =>
    rw [mapM_cons_eq, shapeEscapes_bind, reaches_cons, ← ih]
    simp only [shapeEscapes_bind, not_shapeEscapes_ok, and_false, exists_false, or_false,
      exists_and_right]

lemma not_shapeEscapes_member (key : String) (v : Json) : ¬ ShapeEscapes (v.member key) := by
  unfold Json.member
  split
  · split
    · exact not_shapeEscapes_ok _
    · simp [shapeEscapes_error]
  · simp [shapeEscapes_error]

lemma not_shapeEscapes_elements (v : Json) : ¬ ShapeEscapes v.elements := by
  cases v <;> simp [Json.elements, shapeEscapes_error, not_shapeEscapes_ok]

lemma not_shapeEscapes_pair (v : Json) : ¬ ShapeEscapes v.pair := by
  unfold Json.pair
  split
  · exact not_shapeEscapes_ok _
  · simp [shapeEscapes_error]
  · rename_i e he
    have := not_shapeEscapes_elements v
    rw [he, shapeEscapes_error] at this
    rwa [shapeEscapes_error]

lemma not_shapeEscapes_holds (name : String) (v : Json) : ¬ ShapeEscapes (holds name v) := by
  unfold holds
  split <;> simp [shapeEscapes_error, not_shapeEscapes_ok]

lemma not_shapeEscapes_fieldNames (v : Json) : ¬ ShapeEscapes (fieldNames v) := by
  unfold fieldNames
  rw [shapeEscapes_bind, not_or]
  refine ⟨not_shapeEscapes_elements v, ?_⟩
  rintro ⟨items, -, h⟩
  split at h
  · exact not_shapeEscapes_ok _ h
  · exact absurd (shapeEscapes_error.1 h) (by simp)

def IsInfinite (v : Json) : Prop :=
  ∃ x negative, v = .float x ∧ Number.parts x = .infinite negative

/-- The first of some values that is no whole number is an infinity. -/
def FirstInfinite (vs : List Json) : Prop :=
  Reaches (fun v => ∃ n, v.toInt = .ok n) IsInfinite vs

lemma not_firstInfinite_nil : ¬ FirstInfinite [] :=
  not_reaches_nil

lemma firstInfinite_cons {v : Json} {vs : List Json} :
    FirstInfinite (v :: vs) ↔ IsInfinite v ∨ (∃ n, v.toInt = .ok n) ∧ FirstInfinite vs :=
  reaches_cons

/-- **Only an infinity has a whole number that is not tolerated.** -/
lemma shapeEscapes_toInt {v : Json} : ShapeEscapes v.toInt ↔ IsInfinite v := by
  cases v with
  | float x =>
    simp only [Json.toInt, Json.wholeOfFloat, IsInfinite, Json.float.injEq, exists_and_left]
    split
    · rename_i h
      simp [shapeEscapes_error, h]
    · rename_i negative h
      simp [shapeEscapes_error, h]
    · rename_i h
      simp [not_shapeEscapes_ok, h]
  | str s =>
    cases s with
    | chars s =>
      simp only [Json.toInt, IsInfinite, reduceCtorEq, false_and, exists_false, iff_false]
      split <;> simp [shapeEscapes_error, not_shapeEscapes_ok]
    | broken codes h => simp [Json.toInt, IsInfinite, shapeEscapes_error]
  | _ => simp [Json.toInt, IsInfinite, shapeEscapes_error, not_shapeEscapes_ok]

/-! ### Steps that look at files -/

lemma not_escapes_mapError {ε : Type} {f : ε → LoadError}
    (hf : ∀ e, ModelCache.isTolerated (f e) = true) (x : Except ε α) :
    ¬ Escapes (x.mapError f) := by
  rintro ⟨e, he, h⟩
  cases x with
  | error e' =>
    obtain rfl : f e' = e := Except.error.inj he
    rw [hf] at h
    cases h
  | ok a => cases he

lemma not_escapes_disk (x : Except Disk.Error α) : ¬ Escapes (x.mapError LoadError.disk) :=
  not_escapes_mapError (fun _ => rfl) x

lemma escapes_archive {x : Except Archive.Error α} :
    Escapes (x.mapError LoadError.archive) ↔ x = .error .empty := by
  cases x with
  | error e =>
    change Escapes (.error (.archive e) : Except LoadError α) ↔ _
    rw [escapes_error]
    cases e <;> simp [ModelCache.isTolerated]
  | ok a => simp [Except.mapError, not_escapes_ok]

lemma fromUTF8?_eq_some {bytes : ByteArray} {s : String} :
    String.fromUTF8? bytes = some s ↔ bytes = s.toUTF8 := by
  unfold String.fromUTF8?
  constructor
  · intro h
    split at h
    · cases h
      rfl
    · cases h
  · rintro rfl
    rw [String.toUTF8_eq_toByteArray, dif_pos s.isValidUTF8]
    rfl

variable {machine : Machine}

def Reads (machine : Machine) (found : Except Disk.Error Node) (v : Json) : Prop :=
  ∃ s : String, found = .ok (.file s.toUTF8) ∧ Json.parse machine.readDepth s = .ok v

def TooDeep (machine : Machine) (found : Except Disk.Error Node) : Prop :=
  ∃ s : String, found = .ok (.file s.toUTF8) ∧ Json.parse machine.readDepth s = .error .tooDeep

lemma content_eq_ok {found : Except Disk.Error Node} {bytes : ByteArray} :
    Disk.content found = .ok bytes ↔ found = .ok (.file bytes) := by
  unfold Disk.content
  split <;> simp

lemma readDocument_file (s : String) :
    readDocument machine (.ok (.file s.toUTF8)) =
      (Json.parse machine.readDepth s).mapError .syntaxError := by
  have h : String.fromUTF8? s.toUTF8 = some s := fromUTF8?_eq_some.2 rfl
  simp only [readDocument, Disk.content, h]

lemma readDocument_cases (machine : Machine) (found : Except Disk.Error Node) :
    (∃ s : String, found = .ok (.file s.toUTF8)) ∨
      (∃ e, readDocument machine found = .error e ∧ ModelCache.isTolerated e = true) ∧
        ∀ s : String, found ≠ .ok (.file s.toUTF8) := by
  unfold readDocument
  split
  · rename_i e he
    refine Or.inr ⟨⟨_, rfl, rfl⟩, ?_⟩
    rintro s rfl
    simp [Disk.content] at he
  · rename_i bytes hb
    rw [content_eq_ok] at hb
    subst hb
    split
    · rename_i hn
      refine Or.inr ⟨⟨_, rfl, rfl⟩, ?_⟩
      rintro s hs
      obtain rfl : bytes = s.toUTF8 := by simpa using hs
      rw [fromUTF8?_eq_some.2 rfl] at hn
      cases hn
    · rename_i s hs
      rw [fromUTF8?_eq_some] at hs
      exact Or.inl ⟨s, by rw [hs]⟩

lemma readDocument_eq_ok {found : Except Disk.Error Node} {v : Json} :
    readDocument machine found = .ok v ↔ Reads machine found v := by
  constructor
  · intro h
    rcases readDocument_cases machine found with ⟨s, rfl⟩ | ⟨⟨e, he, -⟩, -⟩
    · rw [readDocument_file, mapError_eq_ok] at h
      exact ⟨s, rfl, h⟩
    · rw [he] at h
      cases h
  · rintro ⟨s, rfl, h⟩
    rw [readDocument_file, mapError_eq_ok, h]

/-- **Only a document that is nested too deeply** fails to be read in a way that is not
tolerated. -/
lemma escapes_readDocument {found : Except Disk.Error Node} :
    Escapes (readDocument machine found) ↔ TooDeep machine found := by
  constructor
  · rintro ⟨e, he, h⟩
    rcases readDocument_cases machine found with ⟨s, rfl⟩ | ⟨⟨e', he', h'⟩, -⟩
    · rw [readDocument_file] at he
      refine ⟨s, rfl, ?_⟩
      rcases hp : Json.parse machine.readDepth s with e' | v
      · rw [hp] at he
        obtain rfl : LoadError.syntaxError e' = e := Except.error.inj he
        cases e' <;> simp [ModelCache.isTolerated] at h ⊢
      · rw [hp] at he
        cases he
    · rw [he'] at he
      obtain rfl := Except.error.inj he
      rw [h'] at h
      cases h
  · rintro ⟨s, rfl, h⟩
    rw [readDocument_file, h]
    exact ⟨_, rfl, rfl⟩

end SoundAtlas.Cache
