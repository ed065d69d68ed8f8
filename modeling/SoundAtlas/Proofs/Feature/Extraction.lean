import Mathlib
import SoundAtlas.Proofs.Feature.Fetching
import SoundAtlas.Proofs.Feature.Layout
import SoundAtlas.Proofs.Numeric.Nesting

/-!
The features that are found in a document. The name of a feature is a path of keys with dots between
them; where it leads to a rectangular nesting of finite numbers, the feature has these numbers, row
by row, and otherwise it is left out. The answer has the features in the order in which they were
first asked for.
-/

namespace SoundAtlas.Feature

variable {depth : ℕ} {folder : Path} {d : Disk} {track : Int} {name : FeatureName}
    {names : List FeatureName} {document v : Json} {keys : List Json.Text} {xs : List Float}

/-! ### Paths of keys -/

/-- The pieces of a text are those that have no separator and give the text with separators between
them. -/
lemma split_eq_iff {α : Type} [DecidableEq α] {sep : α} {cs : List α} {pieces : List (List α)} :
    Text.split sep cs = pieces ↔
      pieces ≠ [] ∧ (∀ p ∈ pieces, sep ∉ p) ∧ [sep].intercalate pieces = cs := by
  have hsplit (cs : List α) : Text.split sep cs = cs.splitOn sep := by
    induction cs with
    | nil => rfl
    | cons c cs ih =>
      rw [Text.split, ih, List.splitOn_cons_eq_if_modifyHead]
      obtain ⟨p, ps, hps⟩ := List.exists_cons_of_ne_nil (List.splitOn_ne_nil sep cs)
      simp only [hps, List.modifyHead_cons, beq_iff_eq]
  rw [hsplit]
  constructor
  · rintro rfl
    refine ⟨List.splitOn_ne_nil sep cs, ?_, List.intercalate_splitOn sep⟩
    rw [← hsplit]
    clear hsplit
    induction cs with
    | nil => simp [Text.split]
    | cons c cs ih =>
      rw [Text.split]
      split
      · exact List.forall_mem_cons.2 ⟨List.not_mem_nil, ih⟩
      · rename_i hc
        split
        · simpa using Ne.symm hc
        · rename_i p ps hps
          rw [hps] at ih
          obtain ⟨hp, hps⟩ := List.forall_mem_cons.1 ih
          refine List.forall_mem_cons.2 ⟨?_, hps⟩
          rw [List.mem_cons, not_or]
          exact ⟨Ne.symm hc, hp⟩
  · rintro ⟨hne, hpieces, rfl⟩
    exact List.splitOn_intercalate sep hpieces hne

/-- The name of a feature is the path of its keys, with dots between them. -/
structure IsPathOf (name : FeatureName) (keys : List Json.Text) : Prop where
  ne : keys ≠ []
  undotted : ∀ key ∈ keys, '.'.toNat ∉ key.codes
  joined : ['.'.toNat].intercalate (keys.map Json.Text.codes) = name.codes

lemma codes_ofCodes (cs : List Nat) : (Json.Text.ofCodes cs).codes = cs := by
  unfold Json.Text.ofCodes
  split
  · rename_i h
    have hback : cs.map (Char.toNat ∘ Char.ofNat) = cs.map id :=
      List.map_congr_left fun n hn => by simp [Char.toNat_ofNat, h n hn]
    rw [Json.Text.codes, String.toList_ofList, List.map_map, hback, List.map_id]
  · rfl

lemma isPathOf_iff : IsPathOf name keys ↔
    keys = (Text.split '.'.toNat name.codes).map Json.Text.ofCodes := by
  have hsplit : IsPathOf name keys ↔ Text.split '.'.toNat name.codes =
      keys.map Json.Text.codes := by
    rw [split_eq_iff, List.forall_mem_map]
    constructor
    · rintro ⟨hne, hundotted, hjoined⟩
      exact ⟨by simpa using hne, hundotted, hjoined⟩
    · rintro ⟨hne, hundotted, hjoined⟩
      exact ⟨by simpa using hne, hundotted, hjoined⟩
  have hback (keys : List Json.Text) : (keys.map Json.Text.codes).map Json.Text.ofCodes = keys := by
    rw [List.map_map]
    refine (List.map_congr_left fun key _ => ?_).trans (List.map_id keys)
    exact Json.Text.codes_injective (codes_ofCodes _)
  rw [hsplit]
  constructor
  · intro h
    rw [h, hback]
  · rintro rfl
    rw [List.map_map]
    refine ((List.map_congr_left fun piece _ => ?_).trans (List.map_id _)).symm
    exact codes_ofCodes _

/-- A path of keys leads through nested objects to a value. -/
inductive Leads : List Json.Text → Json → Json → Prop where
  | here (v : Json) : Leads [] v v
  | into {key : Json.Text} {keys : List Json.Text} {ms : List (Json.Text × Json)} {w v : Json}
      (hkey : Json.find? key ms = some w) (h : Leads keys w v) : Leads (key :: keys) (.obj ms) v

lemma resolve_eq_some : resolve keys document = some v ↔ Leads keys document v := by
  induction keys generalizing document with
  | nil =>
    rw [resolve, Option.some.injEq]
    constructor
    · rintro rfl
      exact .here _
    · rintro ⟨⟩
      rfl
  | cons key keys ih =>
    constructor
    · intro h
      cases document with
      | obj ms =>
        obtain ⟨w, hw, h⟩ := Option.bind_eq_some_iff.1 h
        exact .into hw (ih.1 h)
      | _ => cases h
    · rintro ⟨⟩
      rename_i ms w hw h
      exact Option.bind_eq_some_iff.2 ⟨w, hw, ih.2 h⟩

lemma valueOf_eq_some : valueOf name document = some v ↔
    ∃ keys, IsPathOf name keys ∧ Leads keys document v := by
  simp only [isPathOf_iff, exists_eq_left, ← resolve_eq_some]
  rfl

/-! ### One feature -/

/-- A document offers a list of numbers for a feature: the path of its name leads to a rectangular
nesting of finite numbers, and these are the numbers, row by row. -/
def Offers (document : Json) (name : FeatureName) (xs : List Float) : Prop :=
  ∃ keys v s, IsPathOf name keys ∧ Leads keys document v ∧ Tensor.Flattens v s xs

lemma not_flattens_null {s : List ℕ} : ¬ Tensor.Flattens .null s xs := by
  intro h
  have hs := (Tensor.hasShape_single (by simp)).1 h.shape
  subst hs
  obtain ⟨w, x, hw, hx, -⟩ := h.entry [] .nil
  obtain rfl := Option.some.inj hw
  cases hx

lemma findFeature_eq_found (track : Int) : findFeature track document name = .found xs ↔
    Offers document name xs := by
  have hoffers : Offers document name xs ↔ ∃ v, valueOf name document = some v ∧
      ∃ s, Tensor.Flattens v s xs := by
    simp only [valueOf_eq_some, Offers]
    constructor
    · rintro ⟨keys, v, s, hkeys, hv, hs⟩
      exact ⟨v, ⟨keys, hkeys, hv⟩, s, hs⟩
    · rintro ⟨v, ⟨keys, hkeys, hv⟩, s, hs⟩
      exact ⟨keys, v, s, hkeys, hv, hs⟩
  rw [hoffers, findFeature]
  split
  · simp [*]
  · rename_i hv
    simp only [hv, Option.some.injEq, exists_eq_left', reduceCtorEq, false_iff, not_exists]
    exact fun s => not_flattens_null
  · rename_i v _ hv
    simp only [hv, Option.some.injEq, exists_eq_left', ← Tensor.ofJson_finite_iff]
    split
    · simp [*]
    · simp [*]
    · rename_i t ht
      simp only [ht, Except.ok.injEq, exists_eq_left']
      split
      · rename_i hfinite
        simp only [hfinite, true_and, Finding.found.injEq]
      · rename_i hfinite
        simp only [hfinite, false_and, reduceCtorEq]

lemma Offers.unique {ys : List Float} (h : Offers document name xs) (h' : Offers document name ys) :
    xs = ys := by
  rw [← findFeature_eq_found 0] at h h'
  exact Finding.found.inj (h.symm.trans h')

/-! ### All features -/

/-- These are the features of some names that a document offers, with their numbers, in the order in
which the names come first. -/
structure Gathered (document : Json) (names : List FeatureName) (vs : Values) : Prop where
  mem : ∀ name xs, (name, xs) ∈ vs ↔ name ∈ names ∧ Offers document name xs
  order : (vs.map Prod.fst).Pairwise fun a b => names.idxOf a < names.idxOf b

variable {vs : Values}

lemma set_of_not_mem (h : ∀ ys, (name, ys) ∉ vs) : vs.set name xs = vs ++ [(name, xs)] := by
  induction vs with
  | nil => rfl
  | cons v vs ih =>
    have hne : v.1 ≠ name := by
      rintro rfl
      exact h v.2 List.mem_cons_self
    rw [Values.set, if_neg hne, ih fun ys hys => h ys (List.mem_cons_of_mem _ hys),
      List.cons_append]

lemma set_of_mem (h : (name, xs) ∈ vs) (hvs : ∀ ys, (name, ys) ∈ vs → ys = xs) :
    vs.set name xs = vs := by
  induction vs with
  | nil => cases h
  | cons v vs ih =>
    rw [Values.set]
    split
    · rename_i hname
      obtain ⟨n, ys⟩ := v
      obtain rfl : n = name := hname
      rw [hvs ys List.mem_cons_self]
    · rename_i hname
      have hmem : (name, xs) ∈ vs := by
        rcases List.mem_cons.1 h with rfl | hmem
        · exact absurd rfl hname
        · exact hmem
      rw [ih hmem fun ys hys => hvs ys (List.mem_cons_of_mem _ hys)]

lemma gathered_nil : Gathered document [] [] :=
  ⟨by simp, .nil⟩

lemma Gathered.mem_names (h : Gathered document names vs) (hname : name ∈ vs.map Prod.fst) :
    name ∈ names := by
  obtain ⟨⟨n, xs⟩, hmem, rfl⟩ := List.mem_map.1 hname
  exact ((h.mem n xs).1 hmem).1

lemma Gathered.order_concat (h : Gathered document names vs) (name : FeatureName) :
    (vs.map Prod.fst).Pairwise fun a b => (names ++ [name]).idxOf a <
      (names ++ [name]).idxOf b := by
  refine h.order.imp_of_mem fun ha hb hlt => ?_
  rwa [List.idxOf_append_of_mem (h.mem_names ha), List.idxOf_append_of_mem (h.mem_names hb)]

/-- A name that the document offers nothing for, or that has come before, adds nothing. -/
lemma Gathered.skip (h : Gathered document names vs)
    (hname : name ∈ names ∨ ∀ xs, ¬ Offers document name xs) :
    Gathered document (names ++ [name]) vs := by
  refine ⟨fun n xs => ?_, h.order_concat name⟩
  rw [h.mem, List.mem_append, List.mem_singleton]
  refine and_congr_left fun hoffers => ⟨.inl, fun hn => ?_⟩
  rcases hn with hn | rfl
  · exact hn
  · exact hname.resolve_right fun hnone => hnone xs hoffers

/-- **A name that the document offers numbers for** adds them, if it comes for the first time. -/
lemma Gathered.set (h : Gathered document names vs) (hoffers : Offers document name xs) :
    Gathered document (names ++ [name]) (vs.set name xs) := by
  by_cases hname : name ∈ names
  · have hset : vs.set name xs = vs := by
      refine set_of_mem ((h.mem name xs).2 ⟨hname, hoffers⟩) fun ys hys => ?_
      exact ((h.mem name ys).1 hys).2.unique hoffers
    rw [hset]
    exact h.skip (.inl hname)
  · have hset : vs.set name xs = vs ++ [(name, xs)] :=
      set_of_not_mem fun ys hys => hname ((h.mem name ys).1 hys).1
    rw [hset]
    refine ⟨fun n ys => ?_, ?_⟩
    · rw [List.mem_append, h.mem, List.mem_append, List.mem_singleton, List.mem_singleton,
        Prod.mk.injEq, or_and_right]
      refine or_congr_right ⟨?_, ?_⟩
      · rintro ⟨rfl, rfl⟩
        exact ⟨rfl, hoffers⟩
      · rintro ⟨rfl, hys⟩
        exact ⟨rfl, hys.unique hoffers⟩
    · rw [List.map_append, List.pairwise_append]
      refine ⟨h.order_concat name, List.pairwise_singleton _ _, fun n hn m hm => ?_⟩
      obtain rfl : m = name := List.mem_singleton.1 hm
      have hlt : names.idxOf n < names.length := List.idxOf_lt_length_of_mem (h.mem_names hn)
      rw [List.idxOf_append_of_mem (h.mem_names hn), List.idxOf_append_of_notMem hname]
      exact Nat.lt_add_right _ hlt

lemma findFeatures_cons_eq_ok {answer : Option Values} :
    (findFeatures track document (name :: names) vs).result = .ok answer ↔
      (∃ xs, Offers document name xs ∧
        (findFeatures track document names (vs.set name xs)).result = .ok answer) ∨
      ((∀ xs, ¬ Offers document name xs) ∧ (∀ f, findFeature track document name ≠ .fault f) ∧
        (findFeatures track document names vs).result = .ok answer) := by
  simp only [← findFeature_eq_found track, findFeatures]
  cases findFeature track document name <;> simp

lemma gathered_of_findFeatures {seen : List FeatureName} {answer : Option Values}
    (hvs : Gathered document seen vs)
    (h : (findFeatures track document names vs).result = .ok answer) :
    ∃ found, answer = found.nonempty? ∧ Gathered document (seen ++ names) found := by
  induction names generalizing seen vs with
  | nil =>
    refine ⟨vs, (Except.ok.inj h).symm, ?_⟩
    rwa [List.append_nil]
  | cons name names ih =>
    have happend : seen ++ name :: names = (seen ++ [name]) ++ names := by simp
    rw [happend]
    obtain ⟨xs, hoffers, h⟩ | ⟨hnone, -, h⟩ := findFeatures_cons_eq_ok.1 h
    · exact ih (hvs.set hoffers) h
    · exact ih (hvs.skip (.inr hnone)) h

/-- Names that the document offers nothing for can be left out. -/
lemma findFeatures_filter {answer : Option Values} {p : FeatureName → Bool}
    (hp : ∀ name ∈ names, p name = false → ∀ xs, ¬ Offers document name xs)
    (h : (findFeatures track document names vs).result = .ok answer) :
    (findFeatures track document (names.filter p) vs).result = .ok answer := by
  induction names generalizing vs with
  | nil => exact h
  | cons name names ih =>
    obtain ⟨hname, hnames⟩ := List.forall_mem_cons.1 hp
    rw [List.filter_cons]
    obtain ⟨xs, hoffers, h⟩ | ⟨hnone, hfault, h⟩ := findFeatures_cons_eq_ok.1 h
    · have hkept : p name = true := by
        by_contra hdropped
        exact hname (Bool.eq_false_iff.2 hdropped) xs hoffers
      rw [if_pos hkept]
      exact findFeatures_cons_eq_ok.2 (.inl ⟨xs, hoffers, ih hnames h⟩)
    · split
      · exact findFeatures_cons_eq_ok.2 (.inr ⟨hnone, hfault, ih hnames h⟩)
      · exact ih hnames h

/-! ### The document of a track -/

def HasDocument (depth : ℕ) (folder : Path) (d : Disk) (track : Int) (document : Json) : Prop :=
  ∃ content text, d.read (folder.child (documentName track)) = .ok content ∧
    String.fromUTF8? content = some text ∧ Json.parse depth text = .ok document

lemma HasDocument.fetch_eq (h : HasDocument depth folder d track document)
    (names : List FeatureName) :
    (Source.ofFolder depth folder).fetch d track names = findFeatures track document names [] := by
  obtain ⟨content, text, hread, htext, hparse⟩ := h
  have hdocument := readDocument_eq_some.2 ⟨text, htext, hparse⟩
  unfold Source.ofFolder fetchDocument
  dsimp only
  rw [hasNode_of_read hread]
  dsimp only
  rw [hread]
  dsimp only
  rw [hdocument]

/-- **The features are fetched** unless one of those asked for meets a whole number that is too
large. -/
lemma HasDocument.exists_fetch_iff (h : HasDocument depth folder d track document)
    (names : List FeatureName) :
    (∃ answer, ((Source.ofFolder depth folder).fetch d track names).result = .ok answer) ↔
      ∀ name ∈ names, ∀ keys v, IsPathOf name keys → Leads keys document v →
        ¬ Tensor.Overflows v := by
  have hfault (f : Fault) : ((Source.ofFolder depth folder).fetch d track names).result = .error f ↔
      f = .tooLarge ∧ ∃ name ∈ names, ∃ v, valueOf name document = some v ∧ Tensor.Overflows v := by
    rw [h.fetch_eq]
    exact findFeatures_eq_error
  have hvalue : (∃ name ∈ names, ∃ v, valueOf name document = some v ∧ Tensor.Overflows v) ↔
      ¬ ∀ name ∈ names, ∀ keys v, IsPathOf name keys → Leads keys document v →
        ¬ Tensor.Overflows v := by
    simp only [valueOf_eq_some]
    push Not
    constructor
    · rintro ⟨name, hname, v, ⟨keys, hkeys, hv⟩, hlarge⟩
      exact ⟨name, hname, keys, v, hkeys, hv, hlarge⟩
    · rintro ⟨name, hname, keys, v, hkeys, hv, hlarge⟩
      exact ⟨name, hname, v, ⟨keys, hkeys, hv⟩, hlarge⟩
  rw [hvalue] at hfault
  cases hresult : ((Source.ofFolder depth folder).fetch d track names).result with
  | ok answer =>
    refine iff_of_true ⟨answer, rfl⟩ ?_
    by_contra hlarge
    cases hresult.symm.trans ((hfault .tooLarge).2 ⟨rfl, hlarge⟩)
  | error f => exact iff_of_false (by simp) ((hfault f).1 hresult).2

lemma getD_nonempty? (vs : Values) : vs.nonempty?.getD [] = vs := by
  cases vs <;> rfl

lemma nonempty?_eq_none : vs.nonempty? = none ↔ vs = [] := by
  cases vs <;> simp [Values.nonempty?]

lemma Gathered.eq_nil_iff (h : Gathered document names vs) :
    vs = [] ↔ ∀ name ∈ names, ∀ xs, ¬ Offers document name xs := by
  rw [List.eq_nil_iff_forall_not_mem]
  constructor
  · intro hempty name hname xs hoffers
    exact hempty (name, xs) ((h.mem name xs).2 ⟨hname, hoffers⟩)
  · rintro hempty ⟨name, xs⟩ hmem
    obtain ⟨hname, hoffers⟩ := (h.mem name xs).1 hmem
    exact hempty name hname xs hoffers

/-- **Features are extracted exactly.** From every document that can be read the features are
fetched unless one of those asked for meets a whole number beyond the range of floats. The answer
then has the names whose path leads to a rectangular nesting of finite numbers, in the order in
which they were first asked for, each with these numbers row by row; it is no answer at all if there
is no such name; and the other names could as well not have been asked for. -/
theorem fetch_extracts (h : HasDocument depth folder d track document) (names : List FeatureName) :
    let fetched names := ((Source.ofFolder depth folder).fetch d track names).result
    ((∃ answer, fetched names = .ok answer) ↔ ∀ name ∈ names, ∀ keys v, IsPathOf name keys →
      Leads keys document v → ¬ Tensor.Overflows v) ∧
    ∀ answer, fetched names = .ok answer →
      Gathered document names (answer.getD []) ∧
      (answer = none ↔ ∀ name ∈ names, ∀ xs, ¬ Offers document name xs) ∧
      ∀ p : FeatureName → Bool,
        (∀ name ∈ names, p name = false → ∀ xs, ¬ Offers document name xs) →
          fetched (names.filter p) = .ok answer := by
  intro fetched
  refine ⟨h.exists_fetch_iff names, fun answer hanswer => ?_⟩
  have hfetched (names : List FeatureName) :
      fetched names = (findFeatures track document names []).result :=
    congrArg Fetched.result (h.fetch_eq names)
  rw [hfetched] at hanswer
  obtain ⟨found, rfl, hgathered⟩ := gathered_of_findFeatures gathered_nil hanswer
  rw [List.nil_append] at hgathered
  refine ⟨?_, nonempty?_eq_none.trans hgathered.eq_nil_iff, fun p hp => ?_⟩
  · rwa [getD_nonempty?]
  · rw [hfetched]
    exact findFeatures_filter hp hanswer

def nestText : String :=
  "\x7b\"a\": \x7b\"b\": [[1, \"2.5\"], [true, 3]]\x7d, \"c\": [1, [2]], \"d\": []\x7d"

def nestDocument : Json :=
  .object [("a", .object [("b", .arr [.arr [.int 1, .string "2.5"], .arr [.bool true, .int 3]])]),
    ("c", .arr [.int 1, .arr [.int 2]]), ("d", .arr [])]

def nestDisk : Disk where
  root := .folder [("5.json", .file nestText.toUTF8)]
  here := []

theorem fetch_extracts_nest :
    let names : List FeatureName := [.chars "c", .chars "a.b", .chars "x", .chars "d", .chars "a.b"]
    let found : Values := [(.chars "a.b", [1.0, 2.5, 1.0, 3.0]), (.chars "d", [])]
    HasDocument 8 ⟨"", []⟩ nestDisk 5 nestDocument ∧
      ((Source.ofFolder 8 ⟨"", []⟩).fetch nestDisk 5 names).result = .ok (some found) ∧
      Gathered nestDocument names found := by
  intro names found
  have hparse : Json.parse 8 nestText = .ok nestDocument := by cbv
  have h : HasDocument 8 ⟨"", []⟩ nestDisk 5 nestDocument :=
    ⟨nestText.toUTF8, nestText, rfl, fromUTF8?_toUTF8 nestText, hparse⟩
  have hfetch : ((Source.ofFolder 8 ⟨"", []⟩).fetch nestDisk 5 names).result =
      .ok (some found) := by
    rw [h.fetch_eq]
    decide +kernel
  exact ⟨h, hfetch, ((fetch_extracts h names).2 (some found) hfetch).1⟩

end SoundAtlas.Feature
