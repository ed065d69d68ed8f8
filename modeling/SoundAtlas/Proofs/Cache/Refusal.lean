import SoundAtlas.Proofs.Cache.Writing

/-!
When a model cannot be written though the disk would take it. Writing is meant to fail only with the
disk, and then to be warned of; there are three other defects, and each of them is reported as an
error of its own: a name that no file can have, a pointer that is no text, and a number that is too
long.
-/

namespace SoundAtlas

/-! ### Characters of paths -/

lemma Text.mem_of_mem_split {α : Type} [DecidableEq α] {separator a : α} {cs piece : List α}
    (hp : piece ∈ split separator cs) (ha : a ∈ piece) : a ∈ cs := by
  induction cs generalizing piece with
  | nil =>
    obtain rfl : piece = [] := List.mem_singleton.1 hp
    exact ha
  | cons c cs ih =>
    rw [split] at hp
    split at hp
    · rcases List.mem_cons.1 hp with rfl | hp
      · cases ha
      · exact List.mem_cons_of_mem c (ih hp ha)
    · split at hp
      · obtain rfl : piece = [c] := List.mem_singleton.1 hp
        exact List.mem_cons.2 (Or.inl (List.mem_singleton.1 ha))
      · rename_i first rest hsplit
        rcases List.mem_cons.1 hp with rfl | hp
        · rcases List.mem_cons.1 ha with rfl | ha
          · exact List.mem_cons_self
          · exact List.mem_cons_of_mem c (ih (hsplit ▸ List.mem_cons_self) ha)
        · exact List.mem_cons_of_mem c (ih (hsplit ▸ List.mem_cons_of_mem first hp) ha)

namespace Path

variable {p : Path} {ch : Char} {name : String}

/-- A character that does not come with the form of a path is one of its components, or of what
stands in front of them. -/
lemma mem_text (hslash : ch ≠ '/') (hpoint : ch ≠ '.') : ch ∈ p.text.toList ↔
    ch ∈ p.root.toList ∨ ∃ part ∈ p.parts, ch ∈ part.toList := by
  have hparts : ch ∈ ("/".intercalate p.parts).toList ↔ ∃ part ∈ p.parts, ch ∈ part.toList := by
    induction p.parts with
    | nil => simp
    | cons part parts ih =>
      cases parts with
      | nil => simp
      | cons next parts =>
        rw [String.intercalate_cons_of_ne_nil (List.cons_ne_nil _ _),
          List.exists_mem_cons_iff, ← ih]
        simp [hslash]
  unfold text
  split
  · rename_i h
    rw [Bool.and_eq_true, String.isEmpty_iff, List.isEmpty_iff] at h
    simp [h, hpoint]
  · rw [String.toList_append, List.mem_append, hparts]

/-- **A character of a path and of what it leads to** is one of the path or of the name. -/
lemma mem_of_mem_text_child (hslash : ch ≠ '/') (hpoint : ch ≠ '.')
    (h : ch ∈ (p.child name).text.toList) : ch ∈ p.text.toList ∨ ch ∈ name.toList := by
  have hroot : ch ∉ (ofString name).root.toList := by
    unfold ofString rootOf
    dsimp only
    split <;> simp [hslash]
  have hname : (∃ part ∈ (ofString name).parts, ch ∈ part.toList) → ch ∈ name.toList := by
    rintro ⟨part, hpart, hch⟩
    obtain ⟨piece, hpiece, rfl⟩ := List.mem_map.1 hpart
    rw [String.toList_ofList] at hch
    exact Text.mem_of_mem_split (List.mem_filter.1 hpiece).1 hch
  rw [mem_text hslash hpoint] at h ⊢
  unfold child join at h
  split at h
  · rcases h with h | ⟨part, hpart, hch⟩
    · exact Or.inl (Or.inl h)
    · rcases List.mem_append.1 hpart with hpart | hpart
      · exact Or.inl (Or.inr ⟨part, hpart, hch⟩)
      · exact Or.inr (hname ⟨part, hpart, hch⟩)
  · rcases h with h | h
    · exact absurd h hroot
    · exact Or.inr (hname h)

end Path

namespace ModelCache

open Cache

variable {c : ModelCache} {d d' : Disk} {m : Model} {names : FreshNames} {p q : Path}

/-! ### Names that no file can have -/

/-- The paths that a change of the disk needs. Those of what it only removes are not among them. -/
def Effect.paths : Effect → List Path
  | .makeFolder p => [p]
  | .write p _ => [p]
  | .move p q => [p, q]
  | .removeFolder _ => []

lemma makeFolder_eq_badName (h : d.makeFolder p = .error .badName) : '\x00' ∈ p.text.toList := by
  unfold Disk.makeFolder at h
  rcases bind_eq_error.1 h with h | ⟨place, -, h⟩
  · exact place_eq_badName.1 h
  · split at h <;> cases h

lemma exists_of_apply_badName {e : Effect} (h : e.apply d = .error .badName) :
    ∃ p ∈ e.paths, '\x00' ∈ p.text.toList := by
  cases e with
  | makeFolder p => exact ⟨p, List.mem_cons_self, makeFolder_eq_badName h⟩
  | write p content =>
    change d.write p content = _ at h
    unfold Disk.write at h
    rcases bind_eq_error.1 h with h | ⟨place, -, h⟩
    · exact ⟨p, List.mem_cons_self, place_eq_badName.1 h⟩
    · split at h <;> cases h
  | move p q =>
    change d.move p q = _ at h
    unfold Disk.move at h
    rcases bind_eq_error.1 h with h | ⟨source, -, h⟩
    · exact ⟨p, List.mem_cons_self, place_eq_badName.1 h⟩
    · rcases bind_eq_error.1 h with h | ⟨target, -, h⟩
      · exact ⟨q, List.mem_cons_of_mem p List.mem_cons_self, place_eq_badName.1 h⟩
      · split at h <;> cases h
  | removeFolder p => cases h

lemma exists_of_applyAll_badName {effects : List Effect}
    (h : applyAll effects d = .error .badName) :
    ∃ e ∈ effects, ∃ p ∈ e.paths, '\x00' ∈ p.text.toList := by
  induction effects generalizing d with
  | nil => cases h
  | cons e effects ih =>
    rw [applyAll, List.foldlM_cons] at h
    rcases bind_eq_error.1 h with h | ⟨d', -, h⟩
    · exact ⟨e, List.mem_cons_self, exists_of_apply_badName h⟩
    · obtain ⟨e', he', hp⟩ := ih h
      exact ⟨e', List.mem_cons_of_mem e he', hp⟩

lemma makeFolders_eq_badName (h : d.makeFolders p = .error .badName) : '\x00' ∈ p.text.toList := by
  unfold Disk.makeFolders at h
  generalize p.parts.length + 1 = depth at h
  induction depth generalizing p with
  | zero => cases h
  | succ depth ih =>
    unfold Disk.makeFoldersWithin at h
    split at h
    · cases h
    · rcases bind_eq_error.1 h with h | ⟨d', -, h⟩
      · have hparent := ih h
        rw [Path.mem_text (by decide) (by decide)] at hparent ⊢
        exact hparent.imp_right fun ⟨part, hpart, hch⟩ =>
          ⟨part, List.mem_of_mem_dropLast hpart, hch⟩
      · split at h
        · cases h
        · rename_i hmake
          split at h <;> cases h
          exact makeFolder_eq_badName hmake
    · rename_i hmake
      split at h <;> cases h
      exact makeFolder_eq_badName hmake

/-- A cache whose folder cannot be named, or one of the names under which a version is written. -/
def Unnamable (c : ModelCache) (names : FreshNames) : Prop :=
  '\x00' ∈ c.folder.text.toList ∨
    ∃ name ∈ [names.temporary, names.version, names.pointer], '\x00' ∈ name.toList

/-- **All that is needed to write a version** is named by the cache and these names. -/
lemma unnamable_of_path {entries : List (String × Node)} {previous : Option String} {e : Effect}
    (he : e ∈ c.writing m names entries previous) (hp : p ∈ e.paths)
    (h : '\x00' ∈ p.text.toList) : c.Unnamable names := by
  have hchild {name : String} (hname : name ∈ [names.temporary, names.version, names.pointer])
      (h : '\x00' ∈ (c.folder.child name).text.toList) : c.Unnamable names :=
    (Path.mem_of_mem_text_child (by decide) (by decide) h).imp_right fun h => ⟨name, hname, h⟩
  simp only [writing, making, preparing, publishing, List.mem_append, List.mem_cons,
    List.not_mem_nil, or_false] at he
  obtain ((rfl | he) | rfl) | rfl | rfl | he := he
  · obtain rfl := List.mem_singleton.1 hp
    exact hchild (by simp) h
  · obtain ⟨f, hf, rfl⟩ := List.mem_map.1 he
    obtain rfl := List.mem_singleton.1 hp
    have hname : f.name ∈ fileNames := by
      rw [← map_name_versionFiles c.machine.archives m names.time]
      exact List.mem_map_of_mem hf
    rcases Path.mem_of_mem_text_child (by decide) (by decide) h with h | h
    · exact hchild (by simp) h
    · have hfiles : ∀ name ∈ fileNames, '\x00' ∉ name.toList := by decide
      exact absurd h (hfiles _ hname)
  · rcases List.mem_cons.1 hp with rfl | hp
    · exact hchild (by simp) h
    · obtain rfl := List.mem_singleton.1 hp
      exact hchild (by simp) h
  · obtain rfl := List.mem_singleton.1 hp
    exact hchild (by simp) h
  · rcases List.mem_cons.1 hp with rfl | hp
    · exact hchild (by simp) h
    · obtain rfl := List.mem_singleton.1 hp
      rcases Path.mem_of_mem_text_child (by decide) (by decide) h with h | h
      · exact Or.inl h
      · exact absurd h (by decide)
  · obtain ⟨name, -, rfl⟩ := List.mem_map.1 he
    cases hp

/-! ### Models that are refused -/

/-- Why a model is not written though the disk has not refused. -/
inductive Refused (c : ModelCache) (d : Disk) (m : Model) (names : FreshNames) : Error → Prop where
  | name (h : c.Unnamable names) : Refused c d m names (.disk .badName)
  | pointer {d' : Disk} {bytes : ByteArray} (hd : d.makeFolders c.folder = .ok d')
    (hb : d'.read c.pointer = .ok bytes) (hs : ∀ s : String, bytes ≠ s.toUTF8) :
    Refused c d m names .pointer
  | number (h : isWritable c.machine.archives m names.time = false) :
    Refused c d m names .unwritable

lemma writeVersion_eq_error {entries : List (String × Node)} {previous : Option String} {e : Error}
    (h : (c.writeVersion d m names entries previous).1 = .error e) :
    ∃ d' err, e = .disk err ∧ ((applyAll (c.making m names) d = .error err) ∨
      applyAll (c.publishing names entries previous) d' = .error err) := by
  unfold writeVersion at h
  split at h
  · rename_i hmake
    cases h
    exact ⟨d, _, rfl, Or.inl hmake⟩
  · split at h
    · rename_i made _ _ err hpublish
      cases h
      exact ⟨made, err, rfl, Or.inr hpublish⟩
    · cases h

/-- The pointer cannot be looked up for one of two reasons. -/
lemma current_eq_error_cases {e : Error} (h : (c.current d).1 = .error e) :
    (e = .pointer ∧ ∃ bytes, d.read c.pointer = .ok bytes ∧ ∀ s : String, bytes ≠ s.toUTF8) ∨
      (e = .disk .badName ∧ '\x00' ∈ c.folder.text.toList) := by
  unfold current at h
  split at h
  · rename_i hread
    cases h
    have hpointer := read_eq_badName.1 hread
    refine Or.inr ⟨rfl, ?_⟩
    exact (Path.mem_of_mem_text_child (by decide) (by decide) hpointer).resolve_right (by decide)
  · cases h
  · rename_i bytes hread
    split at h
    · rename_i hs
      cases h
      exact Or.inl ⟨rfl, bytes, hread, fromUTF8?_eq_none.1 hs⟩
    · dsimp only at h
      split at h <;> cases h

/-- **A write that fails without the disk** is refused for one of these reasons. -/
lemma refused_of_write {e : Error} (h : (c.write d m names).1.1 = .error e)
    (hdisk : ∀ err, e = .disk err → err = .badName) : c.Refused d m names e := by
  unfold write at h
  split at h
  · rename_i err hmake
    cases h
    obtain rfl := hdisk err rfl
    exact .name (Or.inl (makeFolders_eq_badName hmake))
  · rename_i d' hmake
    split at h
    · rename_i err ws hcurrent
      cases h
      rcases current_eq_error_cases (congrArg Prod.fst hcurrent) with
        ⟨rfl, bytes, hbytes, hs⟩ | ⟨rfl, hfolder⟩
      · exact .pointer hmake hbytes hs
      · exact .name (Or.inl hfolder)
    · rename_i err _ hlist
      cases h
      obtain rfl := hdisk err rfl
      have hnode : d'.node c.folder = .error .badName := by
        unfold Disk.list at hlist
        rcases bind_eq_error.1 hlist with hlist | ⟨node, -, hlist⟩
        · exact hlist
        · split at hlist <;> cases hlist
      exact .name (Or.inl (node_eq_badName.1 hnode))
    · rename_i previous ws entries _ _
      split at h
      · dsimp only at h
        obtain ⟨made, err, rfl, hfails⟩ := writeVersion_eq_error h
        obtain rfl := hdisk err rfl
        have hpath : ∃ e ∈ c.writing m names entries previous, ∃ p ∈ e.paths,
            '\x00' ∈ p.text.toList := by
          rcases hfails with hfails | hfails
          · obtain ⟨e, he, hp⟩ := exists_of_applyAll_badName hfails
            exact ⟨e, List.mem_append_left _ he, hp⟩
          · obtain ⟨e, he, hp⟩ := exists_of_applyAll_badName hfails
            exact ⟨e, List.mem_append_right _ he, hp⟩
        obtain ⟨e, he, p, hp, hch⟩ := hpath
        exact .name (unnamable_of_path he hp hch)
      · rename_i hwrite
        cases h
        exact .number (Bool.eq_false_iff.2 hwrite)

end ModelCache

end SoundAtlas
