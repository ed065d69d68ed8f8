import SoundAtlas.Proofs.Storage.Folder

/-!
Making and removing the folder that a path leads to. If the way there does not lead through that
folder, it is empty once it has been made, it is made only once, and after it has been removed it
can be made again.
-/

namespace SoundAtlas

def Node.file? : Node → Option ByteArray
  | .file content => some content
  | .folder _ => none

/-- **What file is at a place** does not change when entries of one name do, unless the way there
leads through them. -/
lemma Node.file?_follow_change {n : Node} {name : String} {place inner : List String}
    {f : List (String × Node) → List (String × Node)}
    (hf : ∀ es, ∀ other ≠ name, entry? other (f es) = entry? other es)
    (hout : ¬ place ++ [name] <+: inner) :
    ((n.change f place).follow inner).map file? = (n.follow inner).map file? := by
  induction place generalizing n inner with
  | nil =>
    cases n with
    | file c => rw [change]
    | folder entries =>
      cases inner with
      | nil => rfl
      | cons a inner =>
        have hne : a ≠ name := by
          rintro rfl
          exact hout (by simp)
        rw [change, follow, follow, hf entries a hne]
  | cons x place ih =>
    cases n with
    | file c => rw [change]
    | folder entries =>
      rw [change]
      cases hx : entry? x entries with
      | none => rfl
      | some m =>
        cases inner with
        | nil => rfl
        | cons a inner =>
          dsimp only
          rw [follow, follow, entry?_setEntry]
          by_cases ha : x = a
          · subst ha
            rw [if_pos rfl, hx]
            exact ih fun hpre => hout (List.cons_prefix_cons.2 ⟨rfl, hpre⟩)
          · rw [if_neg ha]

lemma Node.isFolder_follow_change {n : Node} {name : String} {place inner : List String}
    {f : List (String × Node) → List (String × Node)}
    (hf : ∀ es, ∀ other ≠ name, entry? other (f es) = entry? other es)
    (hout : ¬ place ++ [name] <+: inner) :
    ((n.change f place).follow inner).map isFolder = (n.follow inner).map isFolder := by
  have hkind : isFolder = Option.isNone ∘ file? := by
    funext n
    cases n <;> rfl
  rw [hkind, ← Option.map_map, ← Option.map_map, file?_follow_change hf hout]

lemma Node.change_of_not_folder {n : Node} {place : List String}
    {f : List (String × Node) → List (String × Node)}
    (h : ∀ es, n.follow place ≠ some (.folder es)) : n.change f place = n := by
  induction place generalizing n with
  | nil =>
    cases n with
    | file c => rfl
    | folder entries => exact absurd rfl (h entries)
  | cons x place ih =>
    cases n with
    | file c => rfl
    | folder entries =>
      rw [change]
      cases hx : entry? x entries with
      | none => rfl
      | some m =>
        have hm : ∀ es, m.follow place ≠ some (.folder es) := by
          simpa only [follow, hx] using h
        dsimp only
        rw [ih hm, setEntry_of_some hx]

namespace Disk

variable {d d' : Disk} {p : Path} {place names above : List String}
  {entries : List (String × Node)} {name : String}

lemma exists_folder_iff {q : List String} :
    (∃ es, d.at? q = some (.folder es)) ↔ (d.at? q).map Node.isFolder = some true := by
  rcases d.at? q with _ | _ | _ <;> simp [Node.isFolder]

/-! ### Straight ways -/

/-- The path has components, and its way does not lead through the place that it leads to. -/
def IsStraight (d : Disk) (p : Path) : Prop :=
  p.parts ≠ [] ∧ ∀ v ∈ way (d.origin p) p.parts, ¬ p.placeFrom d.here <+: v

instance (d : Disk) (p : Path) : Decidable (d.IsStraight p) :=
  inferInstanceAs (Decidable (_ ∧ ∀ v ∈ way (d.origin p) p.parts, _))

lemma IsStraight.isDirect (hs : d.IsStraight p) : d.IsDirect p :=
  fun v hv hpre => absurd hpre (hs.2 v hv)

lemma isStraight_congr (h : d'.here = d.here) : d'.IsStraight p ↔ d.IsStraight p := by
  rw [IsStraight, IsStraight, origin, origin, h]

/-- The place from which the last name of a path leads on. -/
def aboveOf (d : Disk) (p : Path) : List String :=
  p.parts.dropLast.foldl step (d.origin p)

lemma way_eq_concat (hp : p.parts ≠ []) (d : Disk) :
    way (d.origin p) p.parts = way (d.origin p) p.parts.dropLast ++ [d.aboveOf p] := by
  conv_lhs => rw [← List.dropLast_append_getLast hp]
  exact way_append _ _ _

lemma IsStraight.aboveOf_mem (hs : d.IsStraight p) : d.aboveOf p ∈ way (d.origin p) p.parts := by
  rw [way_eq_concat hs.1]
  exact List.mem_append_right _ (List.mem_singleton_self _)

/-- **A straight path leads to a name of its own** in the folder above. -/
lemma IsStraight.placeFrom_eq (hs : d.IsStraight p) :
    p.placeFrom d.here = d.aboveOf p ++ [p.name] ∧ p.name ≠ ".." := by
  have hlast : p.parts.getLast hs.1 = p.name := by
    rw [Path.name, List.getLastD_eq_getLast?, List.getLast?_eq_some_getLast hs.1]
    rfl
  have hplace : p.placeFrom d.here = step (d.aboveOf p) p.name := by
    rw [Disk.placeFrom_eq, ← hlast]
    conv_lhs => rw [← List.dropLast_append_getLast hs.1]
    rw [List.foldl_append]
    rfl
  have hup : p.name ≠ ".." := by
    intro hup
    refine hs.2 _ hs.aboveOf_mem ?_
    rw [hplace, step, if_pos hup]
    exact List.dropLast_prefix _
  refine ⟨?_, hup⟩
  rw [hplace, step, if_neg hup]

/-! ### Something new at a place -/

lemma entry?_setEntry_of_ne (name : String) (n : Node) (es : List (String × Node)) :
    ∀ other ≠ name, Node.entry? other (Node.setEntry name n es) = Node.entry? other es :=
  fun other hne => by rw [Node.entry?_setEntry, if_neg hne.symm]

lemma entry?_dropEntry_of_ne (name : String) (es : List (String × Node)) :
    ∀ other ≠ name, Node.entry? other (Node.dropEntry name es) = Node.entry? other es :=
  fun other hne => by rw [Node.entry?_dropEntry, if_neg hne.symm]

lemma at?_put (h : d.at? above = some (.folder entries)) (n : Node) :
    (d.put (above ++ [name]) n).at? (above ++ [name]) = some n := by
  have hchange := Node.follow_change (Node.setEntry name n) [] h
  rw [List.append_nil] at hchange
  rw [put_concat, at?, Node.follow_append, Disk.change, hchange]
  change (Node.folder (Node.setEntry name n entries)).follow [name] = some n
  rw [Node.follow, Node.entry?_setEntry, if_pos rfl]
  rfl

/-- A place where nothing is stays so if an empty folder is made elsewhere, or on the way there. -/
lemma at?_put_of_none {q : List String} (hq : d.at? q = none) (hout : ¬ q <+: above ++ [name]) :
    (d.put (above ++ [name]) (.folder [])).at? q = none := by
  by_cases hfolder : ∃ es, d.at? above = some (.folder es)
  · by_cases hpre : above ++ [name] <+: q
    · obtain ⟨es, hes⟩ := hfolder
      obtain ⟨rest, rfl⟩ := hpre
      rw [at?, Node.follow_append]
      change ((d.put (above ++ [name]) (.folder [])).at? (above ++ [name])).bind _ = none
      rw [at?_put hes]
      cases rest with
      | nil => simp at hout
      | cons a rest => rfl
    · have hkind := Node.isFolder_follow_change (n := d.root)
        (entry?_setEntry_of_ne name (.folder [])) hpre
      change ((d.change above (Node.setEntry name (.folder []))).at? q).map Node.isFolder =
        (d.at? q).map Node.isFolder at hkind
      rwa [← put_concat, hq, Option.map_none, Option.map_eq_none_iff] at hkind
  · rw [put_concat, Disk.change, Node.change_of_not_folder (not_exists.1 hfolder)]
    exact hq

/-! ### Making the folder -/

lemma makeFolder_eq_ok : d.makeFolder p = .ok d' ↔
    ∃ q, d.place p = .ok q ∧ d.at? q = none ∧ d' = d.put q (.folder []) := by
  unfold Disk.makeFolder
  cases d.place p with
  | error e => simp [bind, Except.bind]
  | ok q =>
    simp only [bind, Except.bind, Except.ok.injEq, exists_eq_left']
    cases d.at? q <;>
      simp [throw, throwThe, MonadExceptOf.throw, pure, Except.pure, eq_comm]

/-- **The way stays** when the entry changes that it leads to. -/
lemma IsStraight.place_change (hs : d.IsStraight p) {q : List String} (hq : d.place p = .ok q)
    {f : List (String × Node) → List (String × Node)}
    (hf : ∀ es, ∀ other ≠ p.name, Node.entry? other (f es) = Node.entry? other es) :
    (d.change (d.aboveOf p) f).place p = .ok q := by
  obtain ⟨haccepts, hwalk⟩ := place_eq_ok.1 hq
  obtain ⟨hway, hshort, hplace⟩ := walk_eq_ok.1 hwalk
  refine place_eq_ok.2 ⟨haccepts, walk_eq_ok.2 ⟨fun v hv => ?_, hshort, hplace⟩⟩
  have hout : ¬ d.aboveOf p ++ [p.name] <+: v := by
    rw [← hs.placeFrom_eq.1]
    exact hs.2 v hv
  rw [exists_folder_iff]
  exact (Node.isFolder_follow_change hf hout).trans (exists_folder_iff.1 (hway v hv))

lemma IsStraight.exists_above (hs : d.IsStraight p) {q : List String} (hq : d.place p = .ok q) :
    ∃ es, d.at? (d.aboveOf p) = some (.folder es) :=
  (walk_eq_ok.1 (place_eq_ok.1 hq).2).1 _ hs.aboveOf_mem

lemma IsStraight.opens_makeFolder (hs : d.IsStraight p) (h : d.makeFolder p = .ok d') :
    d'.Opens p [] := by
  obtain ⟨q, hq, -, rfl⟩ := makeFolder_eq_ok.1 h
  obtain ⟨es, hes⟩ := hs.exists_above hq
  have hplace : q = d.aboveOf p ++ [p.name] := (eq_placeFrom hq).trans hs.placeFrom_eq.1
  have hthere : (d.put (d.aboveOf p ++ [p.name]) (.folder [])).at? (d.aboveOf p ++ [p.name]) =
      some (.folder []) := at?_put hes (.folder [])
  have hway := hs.place_change hq (entry?_setEntry_of_ne p.name (.folder []))
  rw [← put_concat, ← hplace] at hway
  rw [← hplace] at hthere
  exact ⟨list_eq_ok.2 ⟨q, hway, hthere⟩, ((isStraight_congr rfl).2 hs).isDirect⟩

lemma not_node_of_none (h : d.at? (p.placeFrom d.here) = none) (n : Node) : d.node p ≠ .ok n := by
  intro hn
  obtain ⟨q, hq, hat⟩ := node_eq_ok.1 hn
  rw [eq_placeFrom hq, h] at hat
  cases hat

lemma hasFolder_of_none (h : d.at? (p.placeFrom d.here) = none) : d.hasFolder p = false := by
  unfold hasFolder
  split
  · rename_i n hn
    exact absurd hn (not_node_of_none h n)
  · rfl

lemma placeFrom_mem_way {r : Path} (hroot : r.root = p.root) (hpre : r.parts <+: p.parts)
    (hne : r.parts ≠ p.parts) (d : Disk) : r.placeFrom d.here ∈ way (d.origin p) p.parts := by
  obtain ⟨rest, hrest⟩ := hpre
  rw [← hrest, way_append, List.mem_append]
  right
  cases rest with
  | nil => exact absurd (by simpa using hrest) hne
  | cons x rest =>
    rw [Disk.placeFrom_eq, origin, origin, hroot, way]
    exact List.mem_cons_self

/-- **Where nothing was there is an empty folder** once it has been made. -/
lemma IsStraight.opens_makeFolders (hs : d.IsStraight p) (hnone : d.at? (p.placeFrom d.here) = none)
    (h : d.makeFolders p = .ok d') : d'.Opens p [] := by
  unfold makeFolders at h
  rw [makeFoldersWithin] at h
  split at h
  · rename_i hmade
    cases h
    exact hs.opens_makeFolder hmade
  · cases habove : makeFoldersWithin p.parts.length d p.parent with
    | error e =>
      rw [habove] at h
      cases h
    | ok above =>
      -- what has been made so far lies on the way
      have hkept : above.here = d.here ∧ above.at? (p.placeFrom d.here) = none := by
        refine keeps_makeFoldersWithin (P := fun b => b.here = d.here ∧
          b.at? (p.placeFrom d.here) = none) (fun b b' r hroot hpre hkept hmade => ?_)
          ⟨rfl, hnone⟩ habove
        obtain ⟨hhere, hb⟩ := hkept
        refine ⟨(here_makeFolder hmade).trans hhere, ?_⟩
        obtain ⟨v, hv, hvnone, rfl⟩ := makeFolder_eq_ok.1 hmade
        have hmem : v ∈ way (d.origin p) p.parts := by
          rw [eq_placeFrom hv, hhere]
          refine placeFrom_mem_way (p := p) hroot (hpre.trans (List.dropLast_prefix _))
            (fun heq => ?_) d
          have hle := hpre.length_le
          rw [heq, Path.parent, List.length_dropLast] at hle
          have := List.length_pos_iff.2 hs.1
          omega
        obtain rfl | ⟨w, x, rfl⟩ := List.eq_nil_or_concat v
        · cases hvnone
        · rw [List.concat_eq_append] at hmem ⊢
          exact at?_put_of_none hb (hs.2 _ hmem)
      have hs' : above.IsStraight p := (isStraight_congr hkept.1).2 hs
      rw [habove] at h
      dsimp only [bind, Except.bind] at h
      split at h
      · rename_i hmade
        cases h
        exact hs'.opens_makeFolder hmade
      · rw [hasFolder_of_none (by rw [hkept.1]; exact hkept.2)] at h
        cases h
  · rw [hasFolder_of_none hnone] at h
    cases h

lemma Opens.makeFolders (h : d.Opens p entries) : d.makeFolders p = .ok d := by
  obtain ⟨hplace, hat⟩ := h.at_place
  have hmade : d.makeFolder p = .error .exists := by
    rw [Disk.makeFolder, hplace]
    dsimp only [bind, Except.bind]
    rw [hat]
    rfl
  have hfolder : d.hasFolder p = true := by
    rw [hasFolder, node_eq_ok.2 ⟨_, hplace, hat⟩]
    rfl
  rw [Disk.makeFolders, makeFoldersWithin, hmade]
  exact if_pos hfolder

/-! ### Removing the folder -/

/-- Nothing is at a path, and a folder can be made there. -/
structure Vacant (d : Disk) (p : Path) : Prop where
  straight : d.IsStraight p
  absent : d.at? (p.placeFrom d.here) = none
  makeable : ∃ d', d.makeFolders p = .ok d'

lemma Vacant.opens (hv : d.Vacant p) : ∃ d', d.makeFolders p = .ok d' ∧ d'.Opens p [] := by
  obtain ⟨d', hd'⟩ := hv.makeable
  exact ⟨d', hd', hv.straight.opens_makeFolders hv.absent hd'⟩

lemma walk_ne_nameTooLong (h : ∀ name ∈ names, IsShort name) :
    d.walk place names ≠ .error .nameTooLong := by
  induction names generalizing place with
  | nil => simp [walk]
  | cons name names ih =>
    obtain ⟨hname, hnames⟩ := List.forall_mem_cons.1 h
    unfold walk
    split
    · simp
    · simp
    · split
      · exact ih hnames
      · rename_i hup
        rw [if_neg (not_lt.2 (hname.resolve_left hup))]
        exact ih hnames

lemma node_ne_nameTooLong (ha : Accepts p) (h : ∀ name ∈ p.parts, IsShort name) (d : Disk) :
    d.node p ≠ .error .nameTooLong := by
  have hplace : d.place p ≠ .error .nameTooLong := by
    unfold Disk.place
    rw [if_neg (mt List.contains_iff_mem.1 ha.1), if_neg (not_lt.2 ha.2)]
    exact walk_ne_nameTooLong h
  unfold Disk.node
  cases hq : d.place p with
  | error e =>
    rintro he
    obtain rfl : e = .nameTooLong := Except.error.inj he
    exact hplace hq
  | ok q =>
    dsimp only [bind, Except.bind]
    cases d.at? q <;> simp [pure, Except.pure, throw, throwThe, MonadExceptOf.throw]

lemma Vacant.hasNode (hv : d.Vacant p) : d.hasNode p = .ok false := by
  obtain ⟨d', -, hopens⟩ := hv.opens
  obtain ⟨haccepts, hwalk⟩ := place_eq_ok.1 hopens.at_place.1
  have hlong := node_ne_nameTooLong haccepts (walk_eq_ok.1 hwalk).2.1 d
  rw [Disk.hasNode]
  cases hnode : d.node p with
  | ok n =>
    obtain ⟨q, hq, hat⟩ := node_eq_ok.1 hnode
    rw [eq_placeFrom hq, hv.absent] at hat
    cases hat
  | error e =>
    cases e with
    | nameTooLong => exact absurd hnode hlong
    | _ => rfl

/-- A path that leads somewhere on one disk is refused for its length on no other. -/
lemma node_ne_nameTooLong_of_ok {n : Node} (h : d.node p = .ok n) (d' : Disk) :
    d'.node p ≠ .error .nameTooLong := by
  obtain ⟨q, hq, -⟩ := node_eq_ok.1 h
  obtain ⟨haccepts, hwalk⟩ := place_eq_ok.1 hq
  exact node_ne_nameTooLong haccepts (walk_eq_ok.1 hwalk).2.1 d'

lemma Opens.removeFolder_self (h : d.Opens p entries) (hs : d.IsStraight p) :
    ∃ d', d.removeFolder p = (.ok (), d') ∧ d'.here = d.here ∧ d'.Vacant p := by
  obtain ⟨hplace, hat⟩ := h.at_place
  obtain ⟨hname, hup⟩ := hs.placeFrom_eq
  have hremoved : d.removeFolder p = (.ok (), d.drop (p.placeFrom d.here)) := by
    have hparts : p.parts.isEmpty = false := by simpa using hs.1
    rw [Disk.removeFolder, node_eq_ok.2 ⟨_, hplace, hat⟩, hplace]
    dsimp only
    rw [hparts, if_neg Bool.false_ne_true, if_neg hup]
  have hway := hs.place_change hplace (entry?_dropEntry_of_ne p.name)
  rw [← drop_concat, ← hname] at hway
  have hnone : (d.drop (p.placeFrom d.here)).at? (p.placeFrom d.here) = none := by
    rw [hname] at hat ⊢
    exact at?_drop hat
  refine ⟨_, hremoved, rfl, (isStraight_congr rfl).2 hs, hnone,
    (d.drop (p.placeFrom d.here)).put (p.placeFrom d.here) (.folder []), ?_⟩
  rw [Disk.makeFolders, makeFoldersWithin, makeFolder_eq_ok.2 ⟨_, hway, hnone, rfl⟩]

/-! ### Writing over a file -/

lemma eq_of_file_prefix {q v : List String} {content : ByteArray}
    (hq : d.at? q = some (.file content)) (hv : ∃ n, d.at? v = some n) (hpre : q <+: v) :
      v = q := by
  obtain ⟨rest, rfl⟩ := hpre
  obtain ⟨n, hn⟩ := hv
  have hrest : (Node.file content).follow rest = some n := by
    rw [← hn, at?, Node.follow_append]
    change _ = (d.at? q).bind _
    rw [hq, Option.bind_some]
  cases rest with
  | nil => exact List.append_nil q
  | cons => cases hrest

/-- **Another content of a file** is all that changes when it is written over: every other file is
still there. -/
lemma node_write_file {content old : ByteArray} (hp : d.node p = .ok (.file old)) {r : Path}
    {other : ByteArray} (hr : d.node r = .ok (.file other)) (hne : d.place r ≠ d.place p) :
    ∃ d', d.write p content = .ok d' ∧ d'.node p = .ok (.file content) ∧
      ∀ (r : Path) (other : ByteArray), d.node r = .ok (.file other) → d.place r ≠ d.place p →
        d'.node r = .ok (.file other) := by
  obtain ⟨q, hq, hat⟩ := node_eq_ok.1 hp
  -- there is another file, so this one is not the root
  have hroot : q ≠ [] := by
    rintro rfl
    obtain ⟨v, hv, hother⟩ := node_eq_ok.1 hr
    have hsame := eq_of_file_prefix hat ⟨_, hother⟩ List.nil_prefix
    exact hne (by rw [hv, hq, hsame])
  obtain ⟨above, name, rfl⟩ : ∃ above name, q = above ++ [name] :=
    ⟨q.dropLast, q.getLast hroot, (List.dropLast_append_getLast hroot).symm⟩
  obtain ⟨entries, habove⟩ : ∃ es, d.at? above = some (.folder es) := by
    rw [at?, Node.follow_append, Option.bind_eq_some_iff] at hat
    obtain ⟨n, hn, hname⟩ := hat
    cases n with
    | file c => cases hname
    | folder es => exact ⟨es, hn⟩
  have hwritten : d.write p content = .ok (d.put (above ++ [name]) (.file content)) := by
    unfold Disk.write
    rw [hq]
    dsimp only [bind, Except.bind]
    rw [hat]
    rfl
  -- no way leads through the file, so all lead where they did
  have hplace (r : Path) {v : List String} (hv : d.place r = .ok v) :
      (d.put (above ++ [name]) (.file content)).place r = .ok v := by
    obtain ⟨haccepts, hwalk⟩ := place_eq_ok.1 hv
    obtain ⟨hway, hshort, hend⟩ := walk_eq_ok.1 hwalk
    refine place_eq_ok.2 ⟨haccepts, walk_eq_ok.2 ⟨fun u hu => ?_, hshort, hend⟩⟩
    have hfolder := hway u hu
    have hout : ¬ above ++ [name] <+: u := by
      intro hpre
      obtain ⟨es, hes⟩ := hfolder
      obtain rfl := eq_of_file_prefix hat ⟨_, hes⟩ hpre
      cases hat.symm.trans hes
    rw [exists_folder_iff] at hfolder ⊢
    rw [← hfolder, put_concat]
    exact Node.isFolder_follow_change (entry?_setEntry_of_ne name _) hout
  refine ⟨_, hwritten, node_eq_ok.2 ⟨_, hplace p hq, at?_put habove _⟩, fun r other hr hne => ?_⟩
  obtain ⟨v, hv, hother⟩ := node_eq_ok.1 hr
  have hout : ¬ above ++ [name] <+: v := by
    intro hpre
    obtain rfl := eq_of_file_prefix hat ⟨_, hother⟩ hpre
    exact hne (hv.trans hq.symm)
  have hfile : ((d.put (above ++ [name]) (.file content)).at? v).map Node.file? =
      (d.at? v).map Node.file? := by
    rw [put_concat]
    exact Node.file?_follow_change (entry?_setEntry_of_ne name _) hout
  rw [hother, Option.map_some, Option.map_eq_some_iff] at hfile
  obtain ⟨n, hn, hcontent⟩ := hfile
  refine node_eq_ok.2 ⟨v, hplace r hv, ?_⟩
  cases n with
  | file c =>
    obtain rfl : c = other := Option.some.inj hcontent
    exact hn
  | folder es => cases hcontent

end Disk

end SoundAtlas
