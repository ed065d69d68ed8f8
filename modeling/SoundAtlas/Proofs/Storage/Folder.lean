import Mathlib
import SoundAtlas.Storage.Disk

/-!
One folder of a disk. What is done to its entries, by paths that begin with that of the folder, is
told by the entries alone: the way to the folder stays the same, as long as it does not lead through
one of these entries.
-/

namespace SoundAtlas

namespace Node

variable {n m : Node} {entries : List (String × Node)} {name other : String}
  {place rest : List String} {f : List (String × Node) → List (String × Node)}

/-! ### Entries -/

lemma entry?_cons (e : String × Node) (entries : List (String × Node)) (name : String) :
    entry? name (e :: entries) = if e.1 = name then some e.2 else entry? name entries := by
  unfold entry?
  rw [List.find?_cons]
  by_cases h : e.1 = name <;> simp [h]

@[simp]
lemma entry?_nil (name : String) : entry? name [] = none := rfl

lemma entry?_setEntry (name other : String) (n : Node) (entries : List (String × Node)) :
    entry? other (setEntry name n entries) =
      if name = other then some n else entry? other entries := by
  induction entries with
  | nil => rw [setEntry, entry?_cons]
  | cons e entries ih =>
    rw [setEntry]
    by_cases he : e.1 = name
    · rw [if_pos he, entry?_cons, entry?_cons, he]
      split <;> rfl
    · rw [if_neg he, entry?_cons, entry?_cons, ih]
      by_cases heo : e.1 = other
      · rw [if_pos heo, if_pos heo, if_neg (by rintro rfl; exact he heo)]
      · rw [if_neg heo, if_neg heo]

lemma entry?_dropEntry (name other : String) (entries : List (String × Node)) :
    entry? other (dropEntry name entries) =
      if name = other then none else entry? other entries := by
  induction entries with
  | nil => simp [dropEntry]
  | cons e entries ih =>
    rw [dropEntry] at ih ⊢
    rw [List.filter_cons]
    by_cases he : e.1 = name
    · rw [if_neg (by simp [he]), ih, entry?_cons, he]
      split <;> rfl
    · rw [if_pos (by simp [he]), entry?_cons, entry?_cons, ih]
      by_cases heo : e.1 = other
      · rw [if_pos heo, if_pos heo, if_neg (by rintro rfl; exact he heo)]
      · rw [if_neg heo, if_neg heo]

lemma entry?_eq_none : entry? name entries = none ↔ name ∉ entries.map (·.1) := by
  induction entries with
  | nil => simp
  | cons e entries ih =>
    rw [entry?_cons, List.map_cons, List.mem_cons, not_or, ← ih]
    by_cases he : e.1 = name
    · simp [he]
    · simp [he, Ne.symm he]

lemma setEntry_of_none (h : entry? name entries = none) :
    setEntry name n entries = entries ++ [(name, n)] := by
  induction entries with
  | nil => rfl
  | cons e entries ih =>
    rw [entry?_cons] at h
    split at h
    · cases h
    · rename_i he
      rw [setEntry, if_neg he, ih h, List.cons_append]

lemma setEntry_of_some (h : entry? name entries = some n) : setEntry name n entries = entries := by
  induction entries with
  | nil => cases h
  | cons e entries ih =>
    rw [entry?_cons] at h
    rw [setEntry]
    split at h
    · rename_i he
      obtain rfl : e.2 = n := Option.some.inj h
      rw [if_pos he, ← he]
    · rename_i he
      rw [if_neg he, ih h]

lemma setEntry_setEntry (name : String) (n m : Node) (entries : List (String × Node)) :
    setEntry name m (setEntry name n entries) = setEntry name m entries := by
  induction entries with
  | nil => simp [setEntry]
  | cons e entries ih =>
    rw [setEntry]
    split
    · rename_i he
      rw [setEntry, if_pos rfl, setEntry, if_pos he]
    · rename_i he
      rw [setEntry, if_neg he, setEntry, if_neg he, ih]

lemma dropEntry_of_none (h : entry? name entries = none) : dropEntry name entries = entries := by
  rw [entry?_eq_none] at h
  refine List.filter_eq_self.2 fun e he => ?_
  have hne : e.1 ≠ name := by
    rintro rfl
    exact h (List.mem_map_of_mem he)
  simp [hne]

lemma dropEntry_setEntry (name : String) (n : Node) (entries : List (String × Node)) :
    dropEntry name (setEntry name n entries) = dropEntry name entries := by
  induction entries with
  | nil => simp [setEntry, dropEntry]
  | cons e entries ih =>
    rw [setEntry]
    split
    · rename_i he
      simp [dropEntry, he]
    · rename_i he
      unfold dropEntry at ih ⊢
      rw [List.filter_cons, List.filter_cons, ih]

lemma entry?_of_mem (hn : (entries.map (·.1)).Nodup) (h : (name, n) ∈ entries) :
    entry? name entries = some n := by
  induction entries with
  | nil => cases h
  | cons e entries ih =>
    rw [List.map_cons, List.nodup_cons] at hn
    rw [entry?_cons]
    rcases List.mem_cons.1 h with rfl | h
    · rw [if_pos rfl]
    · rw [if_neg fun he => hn.1 (List.mem_map.2 ⟨_, h, he.symm⟩)]
      exact ih hn.2 h

lemma mem_of_entry?_eq (h : entry? name entries = some n) : (name, n) ∈ entries := by
  obtain ⟨e, he, rfl⟩ := Option.map_eq_some_iff.1 h
  have hname : e.1 = name := by simpa using List.find?_some he
  rw [← hname]
  exact List.mem_of_find?_eq_some he

lemma setEntry_perm (hn : (entries.map (·.1)).Nodup) (name : String) (n : Node) :
    (setEntry name n entries).Perm ((name, n) :: dropEntry name entries) := by
  induction entries with
  | nil => exact List.Perm.refl _
  | cons e entries ih =>
    rw [List.map_cons, List.nodup_cons] at hn
    rw [setEntry]
    split
    · rename_i he
      have hnone : entry? name entries = none := entry?_eq_none.2 (he ▸ hn.1)
      rw [dropEntry, List.filter_cons, if_neg (by simp [he]), ← dropEntry,
        dropEntry_of_none hnone]
    · rename_i he
      rw [dropEntry, List.filter_cons, if_pos (by simp [he]), ← dropEntry]
      exact ((ih hn.2).cons e).trans (List.Perm.swap _ _ _)

def NoFolder (name : String) (entries : List (String × Node)) : Prop :=
  ∀ inner, entry? name entries ≠ some (.folder inner)

/-! ### Places -/

lemma follow_append (place rest : List String) (n : Node) :
    n.follow (place ++ rest) = (n.follow place).bind (·.follow rest) := by
  induction place generalizing n with
  | nil => rfl
  | cons name place ih =>
    cases n with
    | file c => rfl
    | folder entries =>
      rw [List.cons_append, follow, follow]
      cases entry? name entries with
      | none => rfl
      | some m => exact ih m

lemma follow_change (f : List (String × Node) → List (String × Node)) (rest : List String)
    (h : n.follow place = some m) :
    (n.change f (place ++ rest)).follow place = some (m.change f rest) := by
  induction place generalizing n with
  | nil =>
    obtain rfl : n = m := by simpa [follow] using h
    rfl
  | cons name place ih =>
    cases n with
    | file c => simp [follow] at h
    | folder entries =>
      rw [follow] at h
      split at h
      · cases h
      · rename_i n' hn'
        rw [List.cons_append, change, hn']
        dsimp only
        rw [follow, entry?_setEntry, if_pos rfl]
        exact ih h

lemma exists_follow_change {inner : List String} (f : List (String × Node) → List (String × Node))
    (h : ∃ es, n.follow inner = some (.folder es)) (hout : place <+: inner → inner = place) :
    ∃ es, (n.change f place).follow inner = some (.folder es) := by
  induction place generalizing n inner with
  | nil =>
    obtain rfl : inner = [] := hout List.nil_prefix
    obtain ⟨es, hes⟩ := h
    obtain rfl : n = .folder es := by simpa [follow] using hes
    exact ⟨f es, rfl⟩
  | cons name place ih =>
    cases n with
    | file c =>
      obtain ⟨es, hes⟩ := h
      cases inner <;> simp [follow] at hes
    | folder entries =>
      rw [change]
      cases hname : entry? name entries with
      | none => exact h
      | some n' =>
        cases inner with
        | nil => exact ⟨_, rfl⟩
        | cons a inner =>
          dsimp only
          rw [follow, entry?_setEntry]
          rw [follow] at h
          by_cases ha : name = a
          · subst ha
            rw [hname] at h
            rw [if_pos rfl]
            refine ih h fun hpre => ?_
            exact (List.cons.inj (hout (List.cons_prefix_cons.2 ⟨rfl, hpre⟩))).2
          · rw [if_neg ha]
            exact h

end Node

/-! ### Components -/

lemma Text.split_of_not_mem {α : Type} [DecidableEq α] {separator : α} {cs : List α}
    (h : separator ∉ cs) : split separator cs = [cs] := by
  induction cs with
  | nil => rfl
  | cons c cs ih =>
    rw [List.mem_cons, not_or] at h
    rw [split, if_neg (Ne.symm h.1), ih h.2]

/-- A text without slashes is one component, unless it is empty or a point. -/
lemma Path.ofString_of_not_mem {name : String} (hslash : '/' ∉ name.toList) (hne : name ≠ "")
    (hpoint : name ≠ ".") : ofString name = ⟨"", [name]⟩ := by
  have hroot : rootOf name.toList = "" := by
    unfold rootOf
    split <;> simp_all
  have hkept : name.toList ≠ [] ∧ name.toList ≠ ['.'] :=
    ⟨fun h => hne (String.toList_inj.1 h), fun h => hpoint (String.toList_inj.1 h)⟩
  rw [ofString, hroot, Text.split_of_not_mem hslash]
  simp [hkept]

lemma Path.text_append {p : Path} (hp : p.parts ≠ []) (name : String) :
    ({ p with parts := p.parts ++ [name] } : Path).text = p.text ++ "/" ++ name := by
  unfold Path.text
  rw [if_neg (by simp), if_neg (by simp [hp]),
    String.intercalate_append_of_ne_nil hp (List.cons_ne_nil _ _), String.intercalate_singleton]
  simp only [String.append_assoc]

/-! ### Ways -/

namespace Disk

variable {d : Disk} {p : Path} {place names : List String} {entries : List (String × Node)}
  {name other : String}

def step (place : List String) (name : String) : List String :=
  if name = ".." then place.dropLast else place ++ [name]

def way : List String → List String → List (List String)
  | _, [] => []
  | place, name :: names => place :: way (step place name) names

def IsShort (name : String) : Prop :=
  name = ".." ∨ name.utf8ByteSize ≤ longestName

lemma walk_eq_ok {q : List String} : d.walk place names = .ok q ↔
    (∀ v ∈ way place names, ∃ es, d.at? v = some (.folder es)) ∧ (∀ name ∈ names, IsShort name) ∧
      q = names.foldl step place := by
  induction names generalizing place with
  | nil =>
    rw [walk]
    simp [way, eq_comm]
  | cons name names ih =>
    rw [walk]
    cases hat : d.at? place with
    | none => simp [way, hat]
    | some n =>
      cases n with
      | file c => simp [way, hat]
      | folder es =>
        dsimp only
        by_cases hup : name = ".."
        · rw [if_pos hup, ih]
          simp [way, hat, IsShort, hup, step]
        · rw [if_neg hup]
          by_cases hlong : longestName < name.utf8ByteSize
          · rw [if_pos hlong]
            simp [IsShort, hup, not_le.2 hlong]
          · rw [if_neg hlong, ih]
            simp [way, hat, IsShort, hup, step, not_lt.1 hlong]

/-- The disk takes the text of a path. -/
def Accepts (p : Path) : Prop :=
  '\x00' ∉ p.text.toList ∧ p.text.utf8ByteSize ≤ longestPath

instance (p : Path) : Decidable (Accepts p) :=
  inferInstanceAs (Decidable (_ ∧ _))

def origin (d : Disk) (p : Path) : List String :=
  if p.root.isEmpty then d.here else []

lemma place_eq_ok {q : List String} :
    d.place p = .ok q ↔ Accepts p ∧ d.walk (d.origin p) p.parts = .ok q := by
  unfold place Accepts
  by_cases hnul : '\x00' ∈ p.text.toList
  · rw [if_pos (List.contains_iff_mem.2 hnul)]
    simp [hnul]
  · rw [if_neg (mt List.contains_iff_mem.1 hnul)]
    by_cases hlong : longestPath < p.text.utf8ByteSize
    · simp [hlong, not_le.2 hlong]
    · rw [if_neg hlong]
      simp [hnul, not_lt.1 hlong, origin]

lemma node_eq_ok {n : Node} :
    d.node p = .ok n ↔ ∃ q, d.place p = .ok q ∧ d.at? q = some n := by
  unfold node
  cases hp : d.place p with
  | error e => simp [bind, Except.bind]
  | ok q =>
    simp only [bind, Except.bind, Except.ok.injEq, exists_eq_left']
    cases hat : d.at? q <;> simp [throw, throwThe, MonadExceptOf.throw, pure, Except.pure]

lemma list_eq_ok : d.list p = .ok entries ↔
    ∃ q, d.place p = .ok q ∧ d.at? q = some (.folder entries) := by
  rw [← node_eq_ok]
  unfold list
  cases d.node p with
  | error e => simp [bind, Except.bind]
  | ok n => cases n <;> simp [bind, Except.bind, throw, throwThe, MonadExceptOf.throw, pure,
      Except.pure]

/-! ### A folder and its entries -/

lemma placeFrom_eq (d : Disk) (p : Path) : p.placeFrom d.here = p.parts.foldl step (d.origin p) :=
    rfl

lemma eq_placeFrom {q : List String} (h : d.place p = .ok q) : q = p.placeFrom d.here :=
  (walk_eq_ok.1 (place_eq_ok.1 h).2).2.2

/-- A path whose name does not lead up leads to a place of this name. -/
lemma exists_placeFrom (hparts : p.parts ≠ []) (hname : p.name ≠ "..") (here : List String) :
    ∃ above, p.placeFrom here = above ++ [p.name] := by
  have hlast : p.parts.getLast hparts = p.name := by
    rw [Path.name, List.getLastD_eq_getLast?, List.getLast?_eq_some_getLast hparts]
    rfl
  refine ⟨p.parts.dropLast.foldl step (if p.root.isEmpty then here else []), ?_⟩
  change p.parts.foldl step _ = _
  rw [← List.dropLast_append_getLast hparts, List.foldl_append, List.foldl_cons, List.foldl_nil,
    List.dropLast_concat, hlast, step, if_neg hname]

/-- The way to the folder at a path does not lead through one of its entries. -/
def IsDirect (d : Disk) (p : Path) : Prop :=
  ∀ v ∈ way (d.origin p) p.parts, p.placeFrom d.here <+: v → v = p.placeFrom d.here

instance (d : Disk) (p : Path) : Decidable (d.IsDirect p) :=
  inferInstanceAs (Decidable (∀ v ∈ way (d.origin p) p.parts, _))

/-- The folder at a path has the given entries, and the way there is direct. -/
structure Opens (d : Disk) (p : Path) (entries : List (String × Node)) : Prop where
  list : d.list p = .ok entries
  direct : d.IsDirect p

lemma at_place_of_list (h : d.list p = .ok entries) : d.place p = .ok (p.placeFrom d.here) ∧
    d.at? (p.placeFrom d.here) = some (.folder entries) := by
  obtain ⟨q, hq, hat⟩ := list_eq_ok.1 h
  obtain rfl := eq_placeFrom hq
  exact ⟨hq, hat⟩

lemma Opens.at_place (h : d.Opens p entries) : d.place p = .ok (p.placeFrom d.here) ∧
    d.at? (p.placeFrom d.here) = some (.folder entries) :=
  at_place_of_list h.list

/-- **A change inside of a folder** changes its entries, and the way there stays. -/
lemma Opens.change (h : d.Opens p entries) {f : List (String × Node) → List (String × Node)}
    {rest : List String} {entries' : List (String × Node)}
    (hf : (Node.folder entries).change f rest = .folder entries') :
    (d.change (p.placeFrom d.here ++ rest) f).Opens p entries' := by
  obtain ⟨hplace, hat⟩ := h.at_place
  obtain ⟨haccepts, hwalk⟩ := place_eq_ok.1 hplace
  obtain ⟨hway, hshort, hq⟩ := walk_eq_ok.1 hwalk
  refine ⟨list_eq_ok.2 ⟨_, place_eq_ok.2 ⟨haccepts, walk_eq_ok.2 ⟨fun v hv => ?_, hshort, hq⟩⟩, ?_⟩,
    h.direct⟩
  · refine Node.exists_follow_change f (hway v hv) fun hpre => ?_
    have hv' := h.direct v hv ((List.prefix_append _ rest).trans hpre)
    rw [hv'] at hpre ⊢
    exact (hpre.eq_of_length_le (by simp)).symm
  · exact (Node.follow_change f rest hat).trans (congrArg some hf)

lemma Opens.change_entries (h : d.Opens p entries)
    (f : List (String × Node) → List (String × Node)) :
    (d.change (p.placeFrom d.here) f).Opens p (f entries) := by
  have hf : (Node.folder entries).change f [] = .folder (f entries) := rfl
  simpa using h.change hf

lemma Opens.change_inner (h : d.Opens p entries) {inner : List (String × Node)}
    (hi : Node.entry? name entries = some (.folder inner))
    (f : List (String × Node) → List (String × Node)) :
    (d.change (p.placeFrom d.here ++ [name]) f).Opens p
      (Node.setEntry name (.folder (f inner)) entries) := by
  refine h.change ?_
  rw [Node.change, hi]
  rfl

/-- A name of one component that does not lead up and is not too long. -/
structure IsName (name : String) : Prop where
  path : Path.ofString name = ⟨"", [name]⟩
  notUp : name ≠ ".."
  short : name.utf8ByteSize ≤ longestName

instance (name : String) : Decidable (IsName name) :=
  decidable_of_iff
    (Path.ofString name = ⟨"", [name]⟩ ∧ name ≠ ".." ∧ name.utf8ByteSize ≤ longestName)
    ⟨fun ⟨hpath, hup, hshort⟩ => ⟨hpath, hup, hshort⟩, fun h => ⟨h.path, h.notUp, h.short⟩⟩

lemma IsName.isShort (hn : IsName name) : IsShort name := Or.inr hn.short

lemma child_eq (hn : IsName name) (p : Path) :
    p.child name = { p with parts := p.parts ++ [name] } := by
  rw [Path.child, hn.path]
  rfl

lemma placeFrom_child (hn : IsName name) (p : Path) (here : List String) :
    (p.child name).placeFrom here = p.placeFrom here ++ [name] := by
  rw [child_eq hn, Path.placeFrom, List.foldl_append]
  exact if_neg hn.notUp

lemma way_append (place names more : List String) :
    way place (names ++ more) = way place names ++ way (names.foldl step place) more := by
  induction names generalizing place with
  | nil => rfl
  | cons name names ih => rw [List.cons_append, way, way, ih, List.cons_append, List.foldl_cons]

lemma way_child (hn : IsName name) (d : Disk) (p : Path) :
    way (d.origin (p.child name)) (p.child name).parts =
      way (d.origin p) p.parts ++ [p.placeFrom d.here] := by
  rw [child_eq hn]
  exact way_append _ _ _

lemma exists_list_of_node_child {n : Node} (hp : p.parts ≠ []) (hn : IsName name)
    (h : d.node (p.child name) = .ok n) : ∃ entries, d.list p = .ok entries := by
  obtain ⟨q, hq, -⟩ := node_eq_ok.1 h
  obtain ⟨⟨hchars, hlength⟩, hwalk⟩ := place_eq_ok.1 hq
  obtain ⟨hway, hshort, -⟩ := walk_eq_ok.1 hwalk
  rw [way_child hn] at hway
  obtain ⟨hway, hlast⟩ := List.forall_mem_append.1 hway
  obtain ⟨entries, hentries⟩ := hlast _ (List.mem_singleton_self _)
  rw [child_eq hn] at hchars hlength hshort
  rw [Path.text_append hp] at hchars hlength
  have haccepts : Accepts p := by
    constructor
    · intro hmem
      exact hchars (by simp [hmem])
    · rw [String.utf8ByteSize_append, String.utf8ByteSize_append] at hlength
      omega
  have hplace : d.place p = .ok (p.placeFrom d.here) :=
    place_eq_ok.2 ⟨haccepts, walk_eq_ok.2
      ⟨hway, (List.forall_mem_append.1 hshort).1, placeFrom_eq d p⟩⟩
  exact ⟨entries, list_eq_ok.2 ⟨_, hplace, hentries⟩⟩

lemma place_child_of_list (h : d.list p = .ok entries) (hn : IsName name)
    (ha : Accepts (p.child name)) : d.place (p.child name) = .ok (p.placeFrom d.here ++ [name]) ∧
      d.at? (p.placeFrom d.here ++ [name]) = Node.entry? name entries := by
  obtain ⟨hplace, hat⟩ := at_place_of_list h
  obtain ⟨hway, hshort, -⟩ := walk_eq_ok.1 (place_eq_ok.1 hplace).2
  constructor
  · refine place_eq_ok.2 ⟨ha, walk_eq_ok.2 ⟨?_, ?_, ?_⟩⟩
    · rw [way_child hn]
      exact List.forall_mem_append.2 ⟨hway, by simpa using ⟨entries, hat⟩⟩
    · rw [child_eq hn]
      exact List.forall_mem_append.2 ⟨hshort, by simpa using hn.isShort⟩
    · rw [← placeFrom_child hn, placeFrom_eq]
  · rw [at?, Node.follow_append]
    change (d.at? (p.placeFrom d.here)).bind _ = _
    rw [hat]
    rw [Option.bind_some, Node.follow]
    cases Node.entry? name entries <;> rfl

lemma Opens.place_child (h : d.Opens p entries) (hn : IsName name) (ha : Accepts (p.child name)) :
    d.place (p.child name) = .ok (p.placeFrom d.here ++ [name]) ∧
      d.at? (p.placeFrom d.here ++ [name]) = Node.entry? name entries :=
  place_child_of_list h.list hn ha

lemma Opens.node_child (h : d.Opens p entries) (hn : IsName name) (ha : Accepts (p.child name)) :
    d.node (p.child name) =
      match Node.entry? name entries with
      | some n => .ok n
      | none => .error .notFound := by
  obtain ⟨hplace, hat⟩ := h.place_child hn ha
  rw [node, hplace]
  dsimp only [bind, Except.bind]
  rw [hat]
  cases Node.entry? name entries <;> rfl

lemma hasNode_eq_true : d.hasNode p = .ok true ↔ ∃ n, d.node p = .ok n := by
  unfold hasNode present
  split <;> simp [*]

/-- **A name is found in a folder** if it is one of the names there, and neither it nor the path
with it is too long. -/
lemma hasNode_child_eq_true (h : d.list p = .ok entries) (hpath : Path.ofString name = ⟨"", [name]⟩)
    (hup : name ≠ "..") : d.hasNode (p.child name) = .ok true ↔
      name ∈ entries.map (·.1) ∧ name.utf8ByteSize ≤ longestName ∧ Accepts (p.child name) := by
  have hentry : name ∈ entries.map (·.1) ↔ ∃ n, Node.entry? name entries = some n := by
    rw [← not_iff_not, ← Node.entry?_eq_none, Option.eq_none_iff_forall_not_mem]
    simp
  rw [hasNode_eq_true, hentry]
  constructor
  · rintro ⟨n, hn⟩
    obtain ⟨q, hq, hat⟩ := node_eq_ok.1 hn
    obtain ⟨ha, hwalk⟩ := place_eq_ok.1 hq
    have hmem : name ∈ (p.child name).parts := by
      rw [Path.child, hpath]
      exact List.mem_append_right _ (List.mem_singleton_self name)
    have hshort : name.utf8ByteSize ≤ longestName :=
      ((walk_eq_ok.1 hwalk).2.1 name hmem).resolve_left hup
    obtain ⟨hplace, hat'⟩ := place_child_of_list h ⟨hpath, hup, hshort⟩ ha
    rw [← Except.ok.inj (hq.symm.trans hplace), hat] at hat'
    exact ⟨⟨n, hat'.symm⟩, hshort, ha⟩
  · rintro ⟨⟨n, hn⟩, hshort, ha⟩
    obtain ⟨hplace, hat⟩ := place_child_of_list h ⟨hpath, hup, hshort⟩ ha
    exact ⟨n, node_eq_ok.2 ⟨_, hplace, hat.trans hn⟩⟩

lemma Opens.child (h : d.Opens p entries) (hn : IsName name) (ha : Accepts (p.child name))
    {inner : List (String × Node)} (hi : Node.entry? name entries = some (.folder inner)) :
    d.Opens (p.child name) inner := by
  obtain ⟨hplace, hat⟩ := h.place_child hn ha
  refine ⟨list_eq_ok.2 ⟨_, hplace, hat.trans hi⟩, fun v hv hpre => ?_⟩
  rw [placeFrom_child hn] at hpre ⊢
  rw [way_child hn, List.mem_append, List.mem_singleton] at hv
  have hv' : v = p.placeFrom d.here := by
    rcases hv with hv | hv
    · exact h.direct v hv ((List.prefix_append _ _).trans hpre)
    · exact hv
  rw [hv'] at hpre
  have := hpre.length_le
  simp at this

lemma Opens.exists_of_place (h : d.Opens p entries) (hn : IsName name) (ha : Accepts (p.child name))
    (ho : IsName other) {q : List String} (hq : d.place ((p.child name).child other) = .ok q) :
    ∃ inner, Node.entry? name entries = some (.folder inner) := by
  obtain ⟨hway, -, -⟩ := walk_eq_ok.1 (place_eq_ok.1 hq).2
  rw [way_child ho, placeFrom_child hn] at hway
  obtain ⟨inner, hinner⟩ := hway _ (List.mem_append_right _ (List.mem_singleton_self _))
  exact ⟨inner, (h.place_child hn ha).2.symm.trans hinner⟩

/-! ### Making the folder -/

lemma here_makeFolder {d' : Disk} (h : d.makeFolder p = .ok d') : d'.here = d.here := by
  unfold Disk.makeFolder at h
  cases hplace : d.place p with
  | error e =>
    rw [hplace] at h
    cases h
  | ok q =>
    rw [hplace] at h
    dsimp only [bind, Except.bind] at h
    split at h <;> cases h
    rfl

/-- **What every folder that is made keeps holds at the end**: only those on the way are made. -/
lemma keeps_makeFoldersWithin {P : Disk → Prop} {depth : ℕ} {d' : Disk}
    (hstep : ∀ (b b' : Disk) (r : Path), r.root = p.root → r.parts <+: p.parts → P b →
      b.makeFolder r = .ok b' → P b')
    (hd : P d) (h : makeFoldersWithin depth d p = .ok d') : P d' := by
  induction depth generalizing d d' p with
  | zero =>
    obtain rfl : d = d' := Except.ok.inj h
    exact hd
  | succ depth ih =>
    rw [makeFoldersWithin] at h
    split at h
    · rename_i hmade
      cases h
      exact hstep _ _ p rfl (List.prefix_refl _) hd hmade
    · cases habove : makeFoldersWithin depth d p.parent with
      | error e =>
        rw [habove] at h
        cases h
      | ok above =>
        have hkept : P above := ih (p := p.parent) (fun b b' r hroot hpre =>
          hstep b b' r hroot (hpre.trans (List.dropLast_prefix _))) hd habove
        rw [habove] at h
        dsimp only [bind, Except.bind] at h
        split at h
        · rename_i hmade
          cases h
          exact hstep _ _ p rfl (List.prefix_refl _) hkept hmade
        · split at h <;> cases h
          exact hkept
    · split at h <;> cases h
      exact hd

lemma here_makeFolders {d' : Disk} (h : d.makeFolders p = .ok d') : d'.here = d.here :=
  keeps_makeFoldersWithin (P := fun b => b.here = d.here)
    (fun _ _ _ _ _ hb hmade => (here_makeFolder hmade).trans hb) rfl h

lemma place_of_write {content : ByteArray} {d' : Disk} (h : d.write p content = .ok d') :
    ∃ q, d.place p = .ok q := by
  unfold Disk.write at h
  cases hq : d.place p with
  | error e =>
    rw [hq] at h
    cases h
  | ok q => exact ⟨q, rfl⟩

lemma here_write {content : ByteArray} {d' : Disk} (h : d.write p content = .ok d') :
    d'.here = d.here := by
  unfold Disk.write at h
  simp only [bind, Except.bind] at h
  split at h
  · cases h
  · split at h <;> cases h
    rfl

lemma here_move {q : Path} {d' : Disk} (h : d.move p q = .ok d') : d'.here = d.here := by
  unfold Disk.move at h
  simp only [bind, Except.bind] at h
  split at h
  · cases h
  · split at h
    · cases h
    · split at h <;> cases h
      rfl

lemma here_removeFolder (d : Disk) (p : Path) : (d.removeFolder p).2.here = d.here := by
  unfold Disk.removeFolder
  split
  · rfl
  · rfl
  · rfl
  · split
    · rfl
    · split <;> rfl

/-! ### Operations in a folder -/

lemma put_concat (d : Disk) (place : List String) (name : String) (n : Node) :
    d.put (place ++ [name]) n = d.change place (Node.setEntry name n) := by
  rw [put, List.dropLast_concat, List.getLastD_concat]

lemma drop_concat (d : Disk) (place : List String) (name : String) :
    d.drop (place ++ [name]) = d.change place (Node.dropEntry name) := by
  rw [drop, List.dropLast_concat, List.getLastD_concat]

/-- **Writing a file** in a folder, unless a folder of this name is there. -/
lemma Opens.write (h : d.Opens p entries) (hn : IsName name) (ha : Accepts (p.child name))
    (content : ByteArray) :
    d.write (p.child name) content =
      match Node.entry? name entries with
      | some (.folder _) => .error .isFolder
      | _ => .ok (d.change (p.placeFrom d.here) (Node.setEntry name (.file content))) := by
  obtain ⟨hplace, hat⟩ := h.place_child hn ha
  rw [Disk.write, hplace]
  dsimp only [bind, Except.bind]
  rw [hat, put_concat]
  cases hentry : Node.entry? name entries with
  | none => rfl
  | some n => cases n <;> rfl

lemma Opens.write_eq_ok (h : d.Opens p entries) (hn : IsName name) (ha : Accepts (p.child name))
    (content : ByteArray) {d' : Disk} :
    d.write (p.child name) content = .ok d' ↔ Node.NoFolder name entries ∧
      d' = d.change (p.placeFrom d.here) (Node.setEntry name (.file content)) := by
  rw [h.write hn ha, Node.NoFolder]
  obtain _ | (_ | _) := Node.entry? name entries <;> simp [eq_comm]

/-- **Making a folder** in a folder, unless the name is taken. -/
lemma Opens.makeFolder (h : d.Opens p entries) (hn : IsName name) (ha : Accepts (p.child name)) :
    d.makeFolder (p.child name) =
      match Node.entry? name entries with
      | some _ => .error .exists
      | none => .ok (d.change (p.placeFrom d.here) (Node.setEntry name (.folder []))) := by
  obtain ⟨hplace, hat⟩ := h.place_child hn ha
  rw [Disk.makeFolder, hplace]
  dsimp only [bind, Except.bind]
  rw [hat, put_concat]
  cases Node.entry? name entries <;> rfl

/-- **Moving an entry** of a folder to another name in it. -/
lemma Opens.move (h : d.Opens p entries) (hn : IsName name) (ha : Accepts (p.child name))
    (hn' : IsName other) (ha' : Accepts (p.child other)) :
    d.move (p.child name) (p.child other) =
      match Node.entry? name entries, Node.entry? other entries with
      | none, _ => .error .notFound
      | some (.file _), some (.folder _) => .error .isFolder
      | some (.folder _), some _ => .error .exists
      | some n, _ => .ok ((d.change (p.placeFrom d.here) (Node.dropEntry name)).change
          (p.placeFrom d.here) (Node.setEntry other n)) := by
  obtain ⟨hplace, hat⟩ := h.place_child hn ha
  obtain ⟨hplace', hat'⟩ := h.place_child hn' ha'
  rw [Disk.move, hplace, hplace']
  dsimp only [bind, Except.bind]
  rw [hat, hat', drop_concat]
  simp only [put_concat]
  obtain _ | (_ | _) := Node.entry? name entries <;>
    obtain _ | (_ | _) := Node.entry? other entries <;> rfl

lemma Opens.move_file_eq_ok (h : d.Opens p entries) (hn : IsName name)
    (ha : Accepts (p.child name)) (hn' : IsName other) (ha' : Accepts (p.child other))
    {content : ByteArray} (hfile : Node.entry? name entries = some (.file content)) {d' : Disk} :
    d.move (p.child name) (p.child other) = .ok d' ↔ Node.NoFolder other entries ∧
      d' = (d.change (p.placeFrom d.here) (Node.dropEntry name)).change (p.placeFrom d.here)
        (Node.setEntry other (.file content)) := by
  rw [h.move hn ha hn' ha', hfile, Node.NoFolder]
  obtain _ | (_ | _) := Node.entry? other entries <;> simp [eq_comm]

lemma Opens.removeFolder (h : d.Opens p entries) (hn : IsName name) (ha : Accepts (p.child name)) :
    d.removeFolder (p.child name) =
      match Node.entry? name entries with
      | some (.folder _) => (.ok (), d.change (p.placeFrom d.here) (Node.dropEntry name))
      | some (.file _) => (.error .notFolder, d)
      | none => (.error .notFound, d) := by
  obtain ⟨hplace, -⟩ := h.place_child hn ha
  have hparts : (p.child name).parts.isEmpty = false := by simp [child_eq hn]
  have hname : (p.child name).name = name := by simp [child_eq hn, Path.name]
  rw [Disk.removeFolder, h.node_child hn ha, hplace]
  obtain _ | (_ | _) := Node.entry? name entries
  · rfl
  · rfl
  · dsimp only
    rw [hparts, if_neg Bool.false_ne_true, hname, if_neg hn.notUp, drop_concat]

lemma Opens.exists_removeFolder (h : d.Opens p entries) (hn : IsName name) :
    ∃ entries', (d.removeFolder (p.child name)).2.Opens p entries' ∧
      ∀ other ≠ name, Node.entry? other entries' = Node.entry? other entries := by
  by_cases ha : Accepts (p.child name)
  · rw [h.removeFolder hn ha]
    obtain _ | (_ | _) := Node.entry? name entries
    · exact ⟨entries, h, fun _ _ => rfl⟩
    · exact ⟨entries, h, fun _ _ => rfl⟩
    · refine ⟨Node.dropEntry name entries, h.change_entries _, fun other hne => ?_⟩
      rw [Node.entry?_dropEntry, if_neg hne.symm]
  · obtain ⟨e, he⟩ : ∃ e, d.place (p.child name) = .error e := by
      cases hplace : d.place (p.child name) with
      | error e => exact ⟨e, rfl⟩
      | ok q => exact absurd (place_eq_ok.1 hplace).1 ha
    have hnode : d.node (p.child name) = .error e := by
      rw [node, he]
      rfl
    rw [Disk.removeFolder, hnode]
    exact ⟨entries, h, fun _ _ => rfl⟩

/-! ### Removing the folder -/

lemma at?_drop {n : Node} (h : d.at? (place ++ [name]) = some n) :
    (d.drop (place ++ [name])).at? (place ++ [name]) = none := by
  rw [at?, Node.follow_append, Option.bind_eq_some_iff] at h
  obtain ⟨m, hm, hn⟩ := h
  cases m with
  | file c => cases hn
  | folder es =>
    have hchange := Node.follow_change (Node.dropEntry name) [] hm
    rw [List.append_nil] at hchange
    rw [drop_concat, at?, Node.follow_append, Disk.change, hchange]
    change (Node.folder (Node.dropEntry name es)).follow [name] = none
    rw [Node.follow, Node.entry?_dropEntry, if_pos rfl]

lemma node_removeFolder (h : (d.removeFolder p).1 = .ok ()) (n : Node) :
    (d.removeFolder p).2.node p ≠ .ok n := by
  unfold Disk.removeFolder at h ⊢
  split at h
  · cases h
  · cases h
  · cases h
  · rename_i entries q hnode hplace
    split at h
    · cases h
    · rename_i hparts
      split at h
      · cases h
      · rename_i hup
        rw [if_neg hparts, if_neg hup]
        obtain ⟨q', hq', hat⟩ := node_eq_ok.1 hnode
        obtain rfl : q = q' := Except.ok.inj (hplace.symm.trans hq')
        obtain ⟨above, habove⟩ := exists_placeFrom (by simpa using hparts) hup d.here
        intro hleft
        obtain ⟨q', hq', hat'⟩ := node_eq_ok.1 hleft
        -- paths still start from the same folder, so this is the same place
        have hsame : q' = above ++ [p.name] := (eq_placeFrom hq').trans habove
        rw [eq_placeFrom hplace, habove] at hat
        rw [eq_placeFrom hplace, habove, hsame] at hat'
        exact Option.some_ne_none n (hat'.symm.trans (at?_drop hat))

lemma node_child_of_not_node (ha : Accepts p) (h : ∀ n, d.node p ≠ .ok n) (hn : IsName name)
    (n : Node) : d.node (p.child name) ≠ .ok n := by
  intro hchild
  obtain ⟨q, hq, -⟩ := node_eq_ok.1 hchild
  obtain ⟨hway, hshort, -⟩ := walk_eq_ok.1 (place_eq_ok.1 hq).2
  rw [way_child hn] at hway
  rw [child_eq hn] at hshort
  obtain ⟨hway, hhere⟩ := List.forall_mem_append.1 hway
  obtain ⟨es, hes⟩ := hhere _ (List.mem_singleton_self _)
  have hplace : d.place p = .ok (p.placeFrom d.here) :=
    place_eq_ok.2 ⟨ha, walk_eq_ok.2 ⟨hway, (List.forall_mem_append.1 hshort).1, placeFrom_eq d p⟩⟩
  exact h _ (node_eq_ok.2 ⟨_, hplace, hes⟩)

end Disk

end SoundAtlas
