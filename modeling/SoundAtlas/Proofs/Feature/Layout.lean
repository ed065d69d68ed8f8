import SoundAtlas.Feature.Layout
import SoundAtlas.Proofs.Chains
import SoundAtlas.Proofs.Json.Tokens
import SoundAtlas.Proofs.Number.Rounding

/-!
The layout of input vectors and of weights. Names are put in an order that depends only on which
they are. In a vector each feature has its place after those of the features before it, and stands
there with its own values; in the weights it has the same place, and stands there with its share as
often as it has values.
-/

namespace SoundAtlas

lemma Json.Text.codes_injective : Function.Injective Json.Text.codes := by
  have hback : Function.LeftInverse Json.Text.ofCodes Json.Text.codes := by
    rintro (s | ⟨cs, h⟩)
    · exact Json.ofCodes_codes s
    · exact dif_neg h
  exact hback.injective

namespace Feature

/-! ### Names in order -/

def Ascending (names : List FeatureName) : Prop :=
  names.Pairwise fun a b => a.codes < b.codes

variable {name x : FeatureName} {names names' : List FeatureName}

lemma mem_insertName : x ∈ insertName name names ↔ x = name ∨ x ∈ names := by
  induction names with
  | nil => simp [insertName]
  | cons n ns ih =>
    rw [insertName]
    split
    · rename_i h
      simp [h]
    · split
      · simp
      · simp only [List.mem_cons, ih]
        tauto

lemma Ascending.insertName (h : Ascending names) (name : FeatureName) :
    Ascending (insertName name names) := by
  induction names with
  | nil => exact List.pairwise_singleton _ _
  | cons n ns ih =>
    obtain ⟨hfirst, hrest⟩ := List.pairwise_cons.1 h
    rw [Feature.insertName]
    split
    · exact h
    · rename_i hne
      split
      · rename_i hlt
        exact List.pairwise_cons.2 ⟨List.forall_mem_cons.2
          ⟨hlt, fun m hm => lt_trans hlt (hfirst m hm)⟩, h⟩
      · rename_i hle
        have hlt : n.codes < name.codes :=
          lt_of_le_of_ne (not_lt.1 hle) fun heq => hne (Json.Text.codes_injective heq.symm)
        refine List.pairwise_cons.2 ⟨fun m hm => ?_, ih hrest⟩
        obtain rfl | hm := mem_insertName.1 hm
        · exact hlt
        · exact hfirst m hm

lemma ascending_orderedNames (names : List FeatureName) : Ascending (orderedNames names) := by
  induction names with
  | nil => exact List.Pairwise.nil
  | cons name names ih => exact ih.insertName name

lemma mem_orderedNames : x ∈ orderedNames names ↔ x ∈ names := by
  induction names with
  | nil => rfl
  | cons name names ih =>
    rw [List.mem_cons, ← ih]
    exact mem_insertName

lemma Ascending.eq (h : Ascending names) (h' : Ascending names')
    (hmem : ∀ name, name ∈ names ↔ name ∈ names') : names = names' := by
  have hnodup {ns : List FeatureName} (h : Ascending ns) : ns.Nodup :=
    h.imp fun hlt heq => by rw [heq] at hlt; exact lt_irrefl _ hlt
  refine ((List.perm_ext_iff_of_nodup (hnodup h) (hnodup h')).2 hmem).eq_of_pairwise
    (fun a b _ _ hab hba => ?_) h h'
  exact absurd (lt_trans hab hba) (lt_irrefl _)

lemma orderedNames_congr (h : ∀ name, name ∈ names' ↔ name ∈ names) :
    orderedNames names' = orderedNames names :=
  (ascending_orderedNames _).eq (ascending_orderedNames _) fun name => by
    rw [mem_orderedNames, mem_orderedNames, h]

lemma orderedNames_orderedNames (names : List FeatureName) :
    orderedNames (orderedNames names) = orderedNames names :=
  orderedNames_congr fun _ => mem_orderedNames

/-! ### Sizes -/

end Feature

/-- A feature is known, and has values. -/
def Registry.Declares (r : Registry) (name : FeatureName) : Prop :=
  ∃ n : ℕ, 0 < n ∧ r.dimensions name = .ok n

def Registry.size (r : Registry) (name : FeatureName) : ℕ :=
  ((List.lookup name r).getD 0).toNat

lemma Registry.Declares.dimensions_eq {r : Registry} {name : FeatureName} (h : r.Declares name) :
    r.dimensions name = .ok (r.size name) ∧ 0 < r.size name := by
  obtain ⟨n, hpos, hn⟩ := h
  have hlookup : List.lookup name r = some (n : ℤ) := by
    unfold dimensions at hn
    split at hn
    · rename_i m hm
      rw [hm, Except.ok.inj hn]
    · cases hn
  rw [hn, size, hlookup]
  exact ⟨rfl, hpos⟩

namespace Feature

variable {r : Registry} {name : FeatureName} {names : List FeatureName} {values : Values}
  {v : List Float}

/-- Where the values of the feature at a place begin: after those of the features before it. -/
def offset (r : Registry) (names : List FeatureName) (i : ℕ) : ℕ :=
  ((names.take i).map r.size).sum

/-- What a track has for a feature. -/
def found (values : Values) (name : FeatureName) : List Float :=
  (values.lookup name).getD []

lemma mapM_dimensions (h : ∀ name ∈ names, r.Declares name) :
    names.mapM r.dimensions = .ok (names.map fun name => (r.size name : ℤ)) := by
  refine (mapM_eq_ok (p := fun _ => True) fun name hname n => ?_).2 ⟨fun _ _ => trivial, rfl⟩
  rw [(h name hname).dimensions_eq.1, Except.ok.injEq, true_and, eq_comm]

lemma totalDimensions_eq (h : ∀ name ∈ names, r.Declares name) :
    totalDimensions r names = .ok (((orderedNames names).map r.size).sum : ℕ) := by
  have hsum (ns : List FeatureName) (n : ℕ) :
      (ns.map fun name => (r.size name : ℤ)).foldl (· + ·) (n : ℤ) =
        ((n + (ns.map r.size).sum : ℕ) : ℤ) := by
    induction ns generalizing n with
    | nil => simp
    | cons name ns ih =>
      rw [List.map_cons, List.foldl_cons, List.map_cons, List.sum_cons, ← Nat.add_assoc, ← ih,
        Nat.cast_add]
  have hmap : (orderedNames names).mapM r.dimensions = _ :=
    mapM_dimensions fun name hname => h name (mem_orderedNames.1 hname)
  have htotal := hsum (orderedNames names) 0
  rw [Nat.zero_add] at htotal
  rw [totalDimensions, hmap, ← htotal]
  rfl

/-! ### Input vectors -/

lemma inputVector_cons (h : r.Declares name) : inputVector r values (name :: names) =
    if (found values name).length ≠ r.size name then
      .ok (.error ⟨name, r.size name, (found values name).length⟩)
    else (inputVector r values names).map fun rest => rest.map (found values name ++ ·) := by
  rw [inputVector, h.dimensions_eq.1]
  change (if ((found values name).length : ℤ) ≠ r.size name then _ else _) = _
  simp only [ne_eq, Nat.cast_inj]
  split
  · rfl
  · cases inputVector r values names with
    | error e => rfl
    | ok rest => cases rest <;> rfl

/-- **A track that has all values** has them one after the other in its vector. -/
lemma inputVector_of_fits (hknown : ∀ name ∈ names, r.Declares name)
    (hfits : ∀ name ∈ names, (found values name).length = r.size name) :
    inputVector r values names = .ok (.ok (names.map (found values)).flatten) := by
  induction names with
  | nil => rfl
  | cons name names ih =>
    obtain ⟨hname, hknown⟩ := List.forall_mem_cons.1 hknown
    obtain ⟨hfit, hfits⟩ := List.forall_mem_cons.1 hfits
    rw [inputVector_cons hname, if_neg (not_not.2 hfit), ih hknown hfits]
    rfl

/-- **The first feature of which a track has a wrong number of values** is reported. -/
lemma inputVector_of_misfit {before after : List FeatureName}
    (hknown : ∀ n ∈ before ++ name :: after, r.Declares n)
    (hbefore : ∀ n ∈ before, (found values n).length = r.size n)
    (hname : (found values name).length ≠ r.size name) :
    inputVector r values (before ++ name :: after) =
      .ok (.error ⟨name, r.size name, (found values name).length⟩) := by
  induction before with
  | nil => rw [List.nil_append, inputVector_cons (hknown name (by simp)), if_pos hname]
  | cons n before ih =>
    obtain ⟨hn, hknown⟩ := List.forall_mem_cons.1 hknown
    obtain ⟨hfit, hbefore⟩ := List.forall_mem_cons.1 hbefore
    rw [List.cons_append, inputVector_cons hn, if_neg (not_not.2 hfit), ih hknown hbefore]
    rfl

lemma inputVector_eq_ok (hknown : ∀ name ∈ names, r.Declares name) :
    inputVector r values names = .ok (.ok v) ↔
      (∀ name ∈ names, (found values name).length = r.size name) ∧
        v = (names.map (found values)).flatten := by
  constructor
  · intro h
    have hfits : ∀ name ∈ names, (found values name).length = r.size name := by
      by_contra hmisfit
      cases hfind : names.find? fun name => (found values name).length != r.size name with
      | none => exact hmisfit (by simpa using hfind)
      | some name =>
        obtain ⟨hname, before, after, rfl, hbefore⟩ := List.find?_eq_some_iff_append.1 hfind
        rw [inputVector_of_misfit hknown (by simpa using hbefore) (by simpa using hname)] at h
        cases h
    rw [inputVector_of_fits hknown hfits] at h
    cases h
    exact ⟨hfits, rfl⟩
  · rintro ⟨hfits, rfl⟩
    exact inputVector_of_fits hknown hfits

/-! ### The layout -/

lemma length_layout {part : FeatureName → List Float}
    (h : ∀ name ∈ names, (part name).length = r.size name) :
    (names.map part).flatten.length = (names.map r.size).sum := by
  rw [List.length_flatten, List.map_map]
  exact congrArg List.sum (List.map_congr_left h)

lemma part_layout {part : FeatureName → List Float}
    (h : ∀ name ∈ names, (part name).length = r.size name) {i : ℕ} (hi : names[i]? = some name) :
    ((names.map part).flatten.drop (offset r names i)).take (r.size name) = part name := by
  induction names generalizing i with
  | nil => simp at hi
  | cons n names ih =>
    obtain ⟨hn, hnames⟩ := List.forall_mem_cons.1 h
    rw [List.map_cons, List.flatten_cons]
    cases i with
    | zero =>
      obtain rfl : n = name := by simpa using hi
      rw [offset, List.take_zero, List.map_nil, List.sum_nil, List.drop_zero, List.take_left' hn]
    | succ i =>
      have hoffset : offset r (n :: names) (i + 1) = (part n).length + offset r names i := by
        rw [offset, List.take_succ_cons, List.map_cons, List.sum_cons, hn, offset]
      rw [hoffset, List.drop_length_add_append]
      exact ih hnames hi

/-! ### Weights -/

def share (r : Registry) (s : FeatureSettings) (name : FeatureName) : Float :=
  (List.lookup name s).getD 0.0 / Float.ofNat (r.size name)

variable {s : FeatureSettings} {w : List Float} {room : ℕ}

lemma repeated_eq_ok {n : ℕ} {x : Float} :
    repeated room n x = .ok w ↔ (n < 2 ^ 63 ∧ n < room) ∧ w = List.replicate n x := by
  unfold repeated isCount
  have hlow : -0x8000000000000000 ≤ (n : ℤ) := by omega
  by_cases hcount : n < 2 ^ 63
  · have hhigh : (n : ℤ) < 0x8000000000000000 := by omega
    simp only [hlow, hhigh, decide_true, Bool.and_self, Bool.not_true, Bool.false_eq_true, if_false,
      Nat.cast_le, hcount, true_and]
    by_cases hroom : room ≤ n
    · simp [hroom]
    · simp [hroom, not_le.1 hroom, eq_comm]
  · have hhigh : ¬ (n : ℤ) < 0x8000000000000000 := by omega
    simp only [hhigh, decide_false, Bool.and_false, Bool.not_false, if_true, hcount, false_and,
      reduceCtorEq]

lemma sharedWeight_eq_ok (h : r.Declares name) : sharedWeight room r s name = .ok w ↔
    (r.size name < 2 ^ 63 ∧ r.size name < room) ∧
      w = List.replicate (r.size name) (share r s name) := by
  obtain ⟨hn, hpos⟩ := h.dimensions_eq
  unfold sharedWeight
  simp only [hn, bind, Except.bind]
  by_cases hcount : r.size name < 2 ^ 63
  · have hfinite : (Float.ofInt (r.size name)).isInf = false :=
      Number.isInf_ofInt (by exact_mod_cast hpos) (by exact_mod_cast hcount)
    have hshare : Number.divideByInt ((List.lookup name s).getD 0.0) (r.size name) =
        .ok (share r s name) := by
      rw [Number.divideByInt, Number.floatOfInt?, hfinite]
      simp only [Bool.false_eq_true, if_false]
      rw [if_neg (by exact_mod_cast hpos.ne')]
      rfl
    rw [hshare]
    exact repeated_eq_ok
  · simp only [hcount, false_and, iff_false]
    cases Number.divideByInt ((List.lookup name s).getD 0.0) (r.size name) with
    | error e => nofun
    | ok x => exact fun hw => hcount (repeated_eq_ok.1 hw).1.1

/-- **The weights** are there unless a feature has more values than can be counted, or all features
together more than there is room for; and then each feature has its share as often as it has
values. -/
lemma inputWeights_eq_ok (h : ∀ name ∈ s.names, r.Declares name) : inputWeights room r s = .ok w ↔
    (∀ name ∈ orderedNames s.names, r.size name < 2 ^ 63) ∧
      ((orderedNames s.names).map r.size).sum < room ∧
      w = ((orderedNames s.names).map fun name =>
        List.replicate (r.size name) (share r s name)).flatten := by
  have hshares (shares : List (List Float)) :
      (orderedNames s.names).mapM (sharedWeight room r s) = .ok shares ↔
        (∀ name ∈ orderedNames s.names, r.size name < 2 ^ 63 ∧ r.size name < room) ∧
          shares = (orderedNames s.names).map fun name =>
            List.replicate (r.size name) (share r s name) :=
    mapM_eq_ok fun name hname _ => sharedWeight_eq_ok (h name (mem_orderedNames.1 hname))
  have hlength : ((orderedNames s.names).map fun name =>
      List.replicate (r.size name) (share r s name)).flatten.length =
        ((orderedNames s.names).map r.size).sum := length_layout fun _ _ => List.length_replicate
  unfold inputWeights
  constructor
  · intro hok
    obtain ⟨shares, hmapped, hok⟩ := bind_eq_ok.1 hok
    obtain ⟨hrooms, rfl⟩ := (hshares shares).1 hmapped
    rw [hlength] at hok
    split at hok
    · cases hok
    · rename_i hroom
      exact ⟨fun name hname => (hrooms name hname).1, not_le.1 hroom, (Except.ok.inj hok).symm⟩
  · rintro ⟨hcounts, hroom, rfl⟩
    have hsize (name) (hname : name ∈ orderedNames s.names) : r.size name < room :=
      (List.le_sum_of_mem (List.mem_map_of_mem hname)).trans_lt hroom
    rw [(hshares _).2 ⟨fun name hname => ⟨hcounts name hname, hsize name hname⟩, rfl⟩]
    change (if room ≤ _ then _ else _) = _
    rw [hlength, if_neg (not_le.2 hroom)]
    rfl

/-! ### Insertion order -/

/-- In maps with the same entries a name leads to the same value. -/
lemma lookup_perm {α : Type} {l l' : List (FeatureName × α)} (h : l.Perm l')
    (hnodup : (l.map Prod.fst).Nodup) (name : FeatureName) :
    List.lookup name l = List.lookup name l' := by
  induction h with
  | nil => rfl
  | cons entry _ ih =>
    rw [List.lookup_cons, List.lookup_cons, ih (List.nodup_cons.1 hnodup).2]
  | swap a b l =>
    obtain ⟨a, x⟩ := a
    obtain ⟨b, y⟩ := b
    have hne : b ≠ a := fun heq => by simp [heq] at hnodup
    rw [List.lookup_cons, List.lookup_cons, List.lookup_cons, List.lookup_cons]
    by_cases ha : name = a
    · subst ha
      rw [beq_eq_false_iff_ne.2 hne.symm]
    · rw [beq_eq_false_iff_ne.2 ha]
  | trans h _ ih ih' => exact (ih hnodup).trans (ih' ((h.map _).nodup_iff.1 hnodup))

section Orders

variable {r' : Registry} {s' : FeatureSettings} {values' : Values}

lemma dimensions_perm (h : r.Perm r') (hnodup : (r.map Prod.fst).Nodup) :
    r.dimensions = r'.dimensions := by
  funext name
  rw [Registry.dimensions, Registry.dimensions, lookup_perm h hnodup]

lemma inputVector_perm (hr : r.dimensions = r'.dimensions) (h : values.Perm values')
    (hnodup : (values.map Prod.fst).Nodup) (names : List FeatureName) :
    inputVector r values names = inputVector r' values' names := by
  induction names with
  | nil => rfl
  | cons name names ih => rw [inputVector, inputVector, hr, lookup_perm h hnodup, ih]

lemma orderedNames_perm (h : s.Perm s') : orderedNames s.names = orderedNames s'.names :=
  orderedNames_congr fun _ => (h.map Prod.fst).mem_iff

lemma inputWeights_perm (hr : r.dimensions = r'.dimensions) (h : s.Perm s')
    (hnodup : s.names.Nodup) : inputWeights room r s = inputWeights room r' s' := by
  have hshared : sharedWeight room r s = sharedWeight room r' s' := by
    funext name
    rw [sharedWeight, sharedWeight, hr, lookup_perm h hnodup]
  rw [inputWeights, inputWeights, hshared, orderedNames_perm h]

end Orders

end Feature

end SoundAtlas
