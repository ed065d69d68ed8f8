import SoundAtlas.Cache.Store
import SoundAtlas.Proofs.Cache.Files
import SoundAtlas.Proofs.Cache.Reading
import SoundAtlas.Proofs.Storage.Folder

/-!
Writing a version, followed entry by entry in the folder of the cache. The version appears under its
name with all its files, then the pointer names it, and what is removed after that is neither of the
two; so whoever reads the cache next gets the model.
-/

namespace SoundAtlas.ModelCache

open Cache Node

variable {c : ModelCache} {d d' : Disk} {m : Model} {names : FreshNames} {time : String}
  {entries inner : List (String × Node)}

/-! ### Names -/

def fileNames : List String :=
  [manifestFile, networkFile, positionsFile, checksumFile]

/-- The names of a version are names, its own is that of a version, and the disk takes all paths in
the cache that are made of them. -/
structure Suits (c : ModelCache) (names : FreshNames) : Prop where
  version : Disk.IsName names.version
  temporary : Disk.IsName names.temporary
  pointer : Disk.IsName names.pointer
  isVersion : isVersionName names.version = true
  /-- The pointer names the version as it is. -/
  isPlain : pointerName names.version = names.version
  folder : Disk.Accepts c.folder
  entries : ∀ name ∈ [names.version, names.temporary, names.pointer, pointerFile],
    Disk.Accepts (c.folder.child name)
  files : ∀ name ∈ fileNames, Disk.Accepts ((c.workshop names).child name) ∧
    Disk.Accepts ((c.version names.version).child name)

instance (c : ModelCache) (names : FreshNames) : Decidable (c.Suits names) :=
  decidable_of_iff
    ((Disk.IsName names.version ∧ Disk.IsName names.temporary ∧ Disk.IsName names.pointer) ∧
      (isVersionName names.version = true ∧ pointerName names.version = names.version) ∧
      (Disk.Accepts c.folder ∧
        ∀ name ∈ [names.version, names.temporary, names.pointer, pointerFile],
        Disk.Accepts (c.folder.child name)) ∧
      ∀ name ∈ fileNames, Disk.Accepts ((c.workshop names).child name) ∧
        Disk.Accepts ((c.version names.version).child name))
    ⟨fun ⟨⟨hv, ht, hp⟩, ⟨his, hplain⟩, ⟨hc, he⟩, hf⟩ => ⟨hv, ht, hp, his, hplain, hc, he, hf⟩,
      fun h => ⟨⟨h.version, h.temporary, h.pointer⟩, ⟨h.isVersion, h.isPlain⟩,
        ⟨h.folder, h.entries⟩, h.files⟩⟩

lemma isName_pointerFile : Disk.IsName pointerFile := by
  decide +kernel

lemma isName_fileNames : ∀ name ∈ fileNames, Disk.IsName name := by
  decide +kernel

namespace Suits

lemma acceptsVersion (hs : c.Suits names) : Disk.Accepts (c.version names.version) :=
  hs.entries _ (by simp)

lemma acceptsTemporary (hs : c.Suits names) : Disk.Accepts (c.workshop names) :=
  hs.entries _ (by simp)

lemma acceptsAnnouncement (hs : c.Suits names) : Disk.Accepts (c.folder.child names.pointer) :=
  hs.entries _ (by simp)

lemma acceptsPointer (hs : c.Suits names) : Disk.Accepts (c.folder.child pointerFile) :=
  hs.entries _ (by simp)

lemma version_ne_pointerFile (hs : c.Suits names) : names.version ≠ pointerFile := by
  intro h
  have hversion := hs.isVersion
  rw [h] at hversion
  revert hversion
  decide

end Suits

/-! ### Making a version -/

def versionEntries (c : ModelCache) (m : Model) (time : String) : List (String × Node) :=
  (versionFiles c.machine.archives m time).map fun f => (f.name, .file f.content)

lemma map_name_versionFiles (archives : Archive.Format) (m : Model) (time : String) :
    (versionFiles archives m time).map (·.name) = fileNames := rfl

lemma entry?_versionEntries {f : File} (hf : f ∈ versionFiles c.machine.archives m time) :
    entry? f.name (c.versionEntries m time) = some (.file f.content) := by
  refine entry?_of_mem ?_ (List.mem_map.2 ⟨f, hf, rfl⟩)
  have hnames : (c.versionEntries m time).map (·.1) = fileNames := rfl
  rw [hnames]
  decide

lemma applyAll_cons {e : Effect} (h : e.apply d = .ok d') (effects : List Effect) :
    applyAll (e :: effects) d = applyAll effects d' := by
  rw [applyAll, List.foldlM_cons, h]
  rfl

lemma applyAll_append {effects : List Effect} (h : applyAll effects d = .ok d')
    (more : List Effect) : applyAll (effects ++ more) d = applyAll more d' := by
  unfold applyAll at h
  rw [applyAll, List.foldlM_append, h]
  rfl

lemma exists_of_applyAll_append {effects more : List Effect}
    (h : applyAll (effects ++ more) d = .ok d') :
    ∃ d₁, applyAll effects d = .ok d₁ ∧ applyAll more d₁ = .ok d' := by
  rw [applyAll, List.foldlM_append] at h
  exact bind_eq_ok.1 h

lemma exists_of_applyAll_cons {e : Effect} {effects : List Effect}
    (h : applyAll (e :: effects) d = .ok d') :
    ∃ d₁, e.apply d = .ok d₁ ∧ applyAll effects d₁ = .ok d' := by
  rw [applyAll, List.foldlM_cons] at h
  exact bind_eq_ok.1 h

lemma applyAll_write (hs : c.Suits names) (h : d.Opens c.folder entries)
    (hi : entry? names.temporary entries = some (.folder inner)) {files : List File}
    (hn : ∀ f ∈ files, f.name ∈ fileNames)
    (hfresh : (inner.map (·.1) ++ files.map (·.name)).Nodup) :
    ∃ d', applyAll (files.map fun f => .write ((c.workshop names).child f.name) f.content)
      d = .ok d' ∧
      d'.Opens c.folder (setEntry names.temporary
        (.folder (inner ++ files.map fun f => (f.name, .file f.content))) entries) := by
  induction files generalizing d entries inner with
  | nil =>
    refine ⟨d, rfl, ?_⟩
    rwa [List.map_nil, List.append_nil, setEntry_of_some hi]
  | cons f files ih =>
    obtain ⟨hf, hn⟩ := List.forall_mem_cons.1 hn
    have hnew : entry? f.name inner = none := by
      rw [entry?_eq_none]
      intro hmem
      exact List.disjoint_of_nodup_append hfresh hmem (by simp)
    have hopens : d.Opens (c.workshop names) inner := h.child hs.temporary hs.acceptsTemporary hi
    have hwrite := hopens.write (isName_fileNames _ hf) (hs.files _ hf).1 f.content
    rw [hnew] at hwrite
    dsimp only at hwrite
    rw [workshop, Disk.placeFrom_child hs.temporary, ← workshop] at hwrite
    have hchanged := h.change_inner hi (setEntry f.name (.file f.content))
    rw [setEntry_of_none hnew] at hchanged
    obtain ⟨d', hd', hopens'⟩ := ih hchanged (by rw [entry?_setEntry, if_pos rfl]) hn
      (by simpa using hfresh)
    refine ⟨d', ?_, by simpa [setEntry_setEntry] using hopens'⟩
    rw [List.map_cons, applyAll_cons (e := .write _ _) hwrite, hd']

structure Fresh (names : FreshNames) (entries : List (String × Node)) : Prop where
  temporary : entry? names.temporary entries = none
  version : entry? names.version entries = none
  distinct : names.temporary ≠ names.version

/-- **A version is prepared** under its temporary name. -/
lemma applyAll_preparing (hs : c.Suits names) (h : d.Opens c.folder entries)
    (hfresh : entry? names.temporary entries = none) :
    ∃ d', applyAll (c.preparing m names) d = .ok d' ∧
      d'.Opens c.folder (entries ++
        [(names.temporary, .folder (c.versionEntries m names.time))]) := by
  have hmake := h.makeFolder hs.temporary hs.acceptsTemporary
  rw [hfresh, ← workshop] at hmake
  dsimp only at hmake
  have hempty : entry? names.temporary (setEntry names.temporary (.folder []) entries) =
      some (.folder []) := by
    rw [entry?_setEntry, if_pos rfl]
  have hnames : ∀ f ∈ versionFiles c.machine.archives m names.time, f.name ∈ fileNames := by
    intro f hf
    rw [← map_name_versionFiles c.machine.archives m names.time]
    exact List.mem_map_of_mem hf
  have hdistinct : (([] : List (String × Node)).map (·.1) ++
      (versionFiles c.machine.archives m names.time).map (·.name)).Nodup := by
    rw [List.map_nil, List.nil_append, map_name_versionFiles]
    decide
  obtain ⟨d', hd', hopens⟩ := applyAll_write hs
    (h.change_entries (setEntry names.temporary (.folder []))) hempty hnames hdistinct
  refine ⟨d', ?_, ?_⟩
  · rw [preparing, applyAll_cons (e := .makeFolder _) hmake, hd']
  · rw [List.nil_append, setEntry_setEntry, setEntry_of_none hfresh] at hopens
    exact hopens

/-- **A version is made** if its names are new. -/
lemma applyAll_making (hs : c.Suits names) (h : d.Opens c.folder entries)
    (hfresh : Fresh names entries) :
    ∃ d', applyAll (c.making m names) d = .ok d' ∧
      d'.Opens c.folder (entries ++
        [(names.version, .folder (c.versionEntries m names.time))]) := by
  obtain ⟨d₁, hd₁, hopens⟩ := applyAll_preparing (m := m) hs h hfresh.temporary
  rw [← setEntry_of_none hfresh.temporary] at hopens
  have hmove := hopens.move hs.temporary hs.acceptsTemporary hs.version hs.acceptsVersion
  rw [entry?_setEntry, if_pos rfl, entry?_setEntry, if_neg hfresh.distinct, hfresh.version,
    ← workshop, ← version] at hmove
  dsimp only at hmove
  have hchanged := (hopens.change_entries (dropEntry names.temporary)).change_entries
    (setEntry names.version (.folder (c.versionEntries m names.time)))
  rw [dropEntry_setEntry, dropEntry_of_none hfresh.temporary, setEntry_of_none hfresh.version]
    at hchanged
  refine ⟨_, ?_, hchanged⟩
  rw [making, applyAll_append hd₁, naming, applyAll_cons (e := .move _ _) hmove]
  rfl

/-- **Only names that are new make a version.** -/
lemma fresh_of_making (hs : c.Suits names) (h : d.Opens c.folder entries)
    (hmade : applyAll (c.making m names) d = .ok d') : Fresh names entries := by
  obtain ⟨d₁, hprepared, hnamed⟩ := exists_of_applyAll_append hmade
  obtain ⟨d₀, hmake, -⟩ := exists_of_applyAll_cons hprepared
  have hfresh : entry? names.temporary entries = none := by
    have hmake' := h.makeFolder hs.temporary hs.acceptsTemporary
    change d.makeFolder (c.folder.child names.temporary) = _ at hmake
    rw [hmake] at hmake'
    split at hmake'
    · cases hmake'
    · assumption
  obtain ⟨d₁', hd₁', hopens⟩ := applyAll_preparing (m := m) hs h hfresh
  obtain rfl : d₁ = d₁' := Except.ok.inj (hprepared.symm.trans hd₁')
  rw [← setEntry_of_none hfresh] at hopens
  obtain ⟨d₂, hmove, -⟩ := exists_of_applyAll_cons hnamed
  have hmove' := hopens.move hs.temporary hs.acceptsTemporary hs.version hs.acceptsVersion
  change d₁.move (c.folder.child names.temporary) (c.folder.child names.version) = _ at hmove
  rw [hmove, entry?_setEntry, if_pos rfl, entry?_setEntry] at hmove'
  by_cases hsame : names.temporary = names.version
  · rw [if_pos hsame] at hmove'
    cases hmove'
  · rw [if_neg hsame] at hmove'
    cases hversion : entry? names.version entries with
    | none => exact ⟨hfresh, hversion, hsame⟩
    | some n =>
      rw [hversion] at hmove'
      cases hmove'

/-! ### Publishing a version -/

structure Movable (names : FreshNames) (entries : List (String × Node)) : Prop where
  announcement : NoFolder names.pointer entries
  pointer : NoFolder pointerFile entries

def pointed (names : FreshNames) (entries : List (String × Node)) : List (String × Node) :=
  setEntry pointerFile (.file names.version.toUTF8) (dropEntry names.pointer entries)

lemma noFolder_setEntry {name other : String} {content : ByteArray} (h : NoFolder other entries) :
    NoFolder other (setEntry name (.file content) entries) := by
  intro inner
  rw [entry?_setEntry]
  split
  · exact fun h => by cases h
  · exact h inner

lemma applyAll_pointing (hs : c.Suits names) (h : d.Opens c.folder entries)
    (hfree : Movable names entries) :
    ∃ d', applyAll [c.announcing names, c.pointing names] d = .ok d' ∧
      d'.Opens c.folder (pointed names entries) := by
  have hannounce := (h.write_eq_ok hs.pointer hs.acceptsAnnouncement names.version.toUTF8).2
    ⟨hfree.announcement, rfl⟩
  have hopens := h.change_entries (setEntry names.pointer (.file names.version.toUTF8))
  have hmove := (hopens.move_file_eq_ok hs.pointer hs.acceptsAnnouncement isName_pointerFile
    hs.acceptsPointer (by rw [entry?_setEntry, if_pos rfl])).2
      ⟨noFolder_setEntry hfree.pointer, rfl⟩
  have hpointed := (hopens.change_entries (dropEntry names.pointer)).change_entries
    (setEntry pointerFile (.file names.version.toUTF8))
  rw [dropEntry_setEntry] at hpointed
  refine ⟨_, ?_, hpointed⟩
  rw [announcing, applyAll_cons (e := .write _ _) hannounce, pointing, pointer,
    applyAll_cons (e := .move _ _) hmove]
  rfl

/-- **The pointer is only moved** where no folder is in the way. -/
lemma movable_of_pointing (hs : c.Suits names) (h : d.Opens c.folder entries)
    (hmoved : applyAll [c.announcing names, c.pointing names] d = .ok d') :
    Movable names entries := by
  obtain ⟨d₁, hannounce, hrest⟩ := exists_of_applyAll_cons hmoved
  obtain ⟨hfree, rfl⟩ := (h.write_eq_ok hs.pointer hs.acceptsAnnouncement _).1 hannounce
  obtain ⟨d₂, hmove, -⟩ := exists_of_applyAll_cons hrest
  have hopens := h.change_entries (setEntry names.pointer (.file names.version.toUTF8))
  obtain ⟨hpointer, -⟩ := (hopens.move_file_eq_ok hs.pointer hs.acceptsAnnouncement
    isName_pointerFile hs.acceptsPointer (by rw [entry?_setEntry, if_pos rfl])).1 hmove
  refine ⟨hfree, fun inner hinner => ?_⟩
  by_cases hsame : names.pointer = pointerFile
  · exact hfree inner (hsame ▸ hinner)
  · refine hpointer inner ?_
    rw [entry?_setEntry, if_neg hsame, hinner]

/-- **Pruning never fails**, and only removes what it is to remove. -/
lemma applyAll_pruning (h : d.Opens c.folder entries) {stale : List String}
    (hn : ∀ name ∈ stale, Disk.IsName name) :
    ∃ d' entries', applyAll (stale.map fun name => .removeFolder (c.version name)) d = .ok d' ∧
      d'.Opens c.folder entries' ∧ ∀ name ∉ stale, entry? name entries' = entry? name entries := by
  induction stale generalizing d entries with
  | nil => exact ⟨d, entries, rfl, h, fun _ _ => rfl⟩
  | cons name stale ih =>
    obtain ⟨hname, hn⟩ := List.forall_mem_cons.1 hn
    obtain ⟨entries₁, hopens, hkept⟩ := h.exists_removeFolder hname
    obtain ⟨d', entries', hd', hopens', hkept'⟩ := ih hopens hn
    refine ⟨d', entries', ?_, hopens', fun other hother => ?_⟩
    · rw [List.map_cons, applyAll_cons (e := .removeFolder _) rfl]
      exact hd'
    · rw [List.mem_cons, not_or] at hother
      rw [hkept' other hother.2, hkept other hother.1]

lemma staleVersions_spec {new : String} {previous : Option String} {name : String}
    (h : name ∈ staleVersions entries new previous) :
    name ∈ entries.map (·.1) ∧ name ≠ new ∧ name ≠ pointerFile := by
  obtain ⟨e, he, rfl⟩ := List.mem_map.1 h
  obtain ⟨hmem, hcond⟩ := List.mem_filter.1 he
  simp only [Bool.and_eq_true, decide_eq_true_eq] at hcond
  obtain ⟨⟨⟨-, hstart⟩, hnew⟩, -⟩ := hcond
  refine ⟨List.mem_map_of_mem hmem, hnew, fun hpointer => ?_⟩
  rw [hpointer] at hstart
  revert hstart
  decide

/-! ### A version that is read -/

/-- The folder of the cache as a reader finds it after a model has been written: the pointer names
the version, and the version has the files of the model. -/
def Serves (c : ModelCache) (names : FreshNames) (m : Model) (d : Disk) : Prop :=
  ∃ entries, d.Opens c.folder entries ∧
    entry? pointerFile entries = some (.file names.version.toUTF8) ∧
    entry? names.version entries = some (.folder (c.versionEntries m names.time))

lemma serves_of_publishing (hs : c.Suits names) (h : d.Opens c.folder entries)
    (hversion : entry? names.version entries = some (.folder (c.versionEntries m names.time)))
    {before : List (String × Node)} (hn : ∀ e ∈ before, Disk.IsName e.1) (previous : Option String)
    (hfree : Movable names entries) :
    ∃ d', applyAll (c.publishing names before previous) d = .ok d' ∧ c.Serves names m d' := by
  obtain ⟨d₁, hd₁, hopens⟩ := applyAll_pointing hs h hfree
  have hstale : ∀ name ∈ staleVersions before names.version previous, Disk.IsName name := by
    intro name hname
    obtain ⟨e, he, rfl⟩ := List.mem_map.1 (staleVersions_spec hname).1
    exact hn e he
  obtain ⟨d', entries', hd', hopens', hkept⟩ := applyAll_pruning hopens hstale
  have hannounced : names.pointer ≠ names.version := by
    rintro hsame
    exact hfree.announcement _ (hsame ▸ hversion)
  refine ⟨d', ?_, entries', hopens', ?_, ?_⟩
  · exact (applyAll_append hd₁ (c.pruning before names previous)).trans hd'
  · rw [hkept _ fun hmem => (staleVersions_spec hmem).2.2 rfl, pointed, entry?_setEntry, if_pos rfl]
  · rw [hkept _ fun hmem => (staleVersions_spec hmem).2.1 rfl, pointed, entry?_setEntry,
      if_neg hs.version_ne_pointerFile.symm, entry?_dropEntry, if_neg hannounced, hversion]

lemma movable_append (hs : c.Suits names) (hfresh : entry? names.version entries = none) :
    Movable names (entries ++ [(names.version, .folder inner)]) ↔
      Movable names entries ∧ names.pointer ≠ names.version := by
  rw [← setEntry_of_none hfresh]
  have hother {name : String} (hne : names.version ≠ name) :
      NoFolder name (setEntry names.version (.folder inner) entries) ↔ NoFolder name entries := by
    simp only [NoFolder, entry?_setEntry, if_neg hne]
  constructor
  · intro h
    have hne : names.version ≠ names.pointer := by
      intro hsame
      refine h.announcement inner ?_
      rw [entry?_setEntry, if_pos hsame]
    exact ⟨⟨(hother hne).1 h.announcement, (hother hs.version_ne_pointerFile).1 h.pointer⟩,
      hne.symm⟩
  · rintro ⟨h, hne⟩
    exact ⟨(hother hne.symm).2 h.announcement, (hother hs.version_ne_pointerFile).2 h.pointer⟩

/-- **A version is written** if its names are new and no folder is in the way of the pointer. -/
lemma exists_writeVersion (hs : c.Suits names) (h : d.Opens c.folder entries)
    (hn : ∀ e ∈ entries, Disk.IsName e.1) (previous : Option String) (hfresh : Fresh names entries)
    (hfree : Movable names entries) (hne : names.pointer ≠ names.version) :
    ∃ d', c.writeVersion d m names entries previous = (.ok (), d') ∧ c.Serves names m d' := by
  obtain ⟨made, hmade, hopens⟩ := applyAll_making (m := m) hs h hfresh
  obtain ⟨published, hpublished, hserves⟩ := serves_of_publishing hs hopens
    (by rw [← setEntry_of_none hfresh.version, entry?_setEntry, if_pos rfl]) hn previous
    ((movable_append hs hfresh.version).2 ⟨hfree, hne⟩)
  refine ⟨published, ?_, hserves⟩
  unfold writeVersion
  rw [hmade]
  dsimp only
  rw [hpublished]

/-- **A version is only written** if its names are new and no folder is in the way of
the pointer. -/
lemma fresh_of_writeVersion (hs : c.Suits names) (h : d.Opens c.folder entries)
    {previous : Option String} (hok : (c.writeVersion d m names entries previous).1 = .ok ()) :
    Fresh names entries ∧ Movable names entries ∧ names.pointer ≠ names.version := by
  unfold writeVersion at hok
  split at hok
  · cases hok
  · rename_i made hmade
    have hfresh := fresh_of_making hs h hmade
    obtain ⟨made', hmade', hopens⟩ := applyAll_making (m := m) hs h hfresh
    obtain rfl : made = made' := Except.ok.inj (hmade.symm.trans hmade')
    split at hok
    · cases hok
    · rename_i published hpublished
      have hsteps : applyAll ([c.announcing names, c.pointing names] ++
          c.pruning entries names previous) made = .ok published := hpublished
      obtain ⟨d₁, hmoved, -⟩ := exists_of_applyAll_append hsteps
      exact ⟨hfresh, (movable_append hs hfresh.version).1 (movable_of_pointing hs hopens hmoved)⟩

/-! ### Writing a model -/

/-- The folder of the cache can be used: the way there is direct, and what is in it, once it is
there, has names. -/
structure Usable (c : ModelCache) (d : Disk) (names : FreshNames) : Prop where
  suits : c.Suits names
  direct : d.IsDirect c.folder
  named : ∀ d₁ entries, d.makeFolders c.folder = .ok d₁ → d₁.list c.folder = .ok entries →
    ∀ e ∈ entries, Disk.IsName e.1

lemma Usable.opens (hu : c.Usable d names) {d₁ : Disk} (hmade : d.makeFolders c.folder = .ok d₁)
    (hlist : d₁.list c.folder = .ok entries) : d₁.Opens c.folder entries := by
  refine ⟨hlist, ?_⟩
  have hdirect := hu.direct
  rwa [Disk.IsDirect, Disk.origin, ← Disk.here_makeFolders hmade] at hdirect

/-- Nothing is in the way of a version: the folder of the cache can be made, its pointer, if it has
one, is a text, the names of the version are new, and no folder is where the pointer goes. -/
def Clear (c : ModelCache) (d : Disk) (names : FreshNames) : Prop :=
  ∃ d₁ entries, d.makeFolders c.folder = .ok d₁ ∧ d₁.list c.folder = .ok entries ∧
    (∃ previous, (c.current d₁).1 = .ok previous) ∧
    Fresh names entries ∧ Movable names entries ∧ names.pointer ≠ names.version

/-- **A model is written** if its numbers are not too long and nothing is in the way. -/
lemma exists_write (hu : c.Usable d names) (hw : isWritable c.machine.archives m names.time = true)
    (hc : c.Clear d names) :
    ∃ d' ws, c.write d m names = ((.ok (), d'), ws) ∧ c.Serves names m d' := by
  obtain ⟨d₁, entries, hmade, hlist, ⟨previous, hcurrent⟩, hfresh, hfree, hne⟩ := hc
  have hopens := hu.opens hmade hlist
  obtain ⟨d', hd', hserves⟩ := exists_writeVersion (m := m) hu.suits hopens
    (hu.named d₁ entries hmade hlist) previous hfresh hfree hne
  refine ⟨d', (c.current d₁).2, ?_, hserves⟩
  have hsplit : c.current d₁ = (.ok previous, (c.current d₁).2) := by rw [← hcurrent]
  unfold write
  rw [hmade]
  dsimp only
  rw [hsplit, hlist]
  dsimp only
  rw [if_pos hw, hd']

/-- **A model is only written** if its numbers are not too long and nothing is in the way. -/
lemma clear_of_write (hu : c.Usable d names) (hok : (c.write d m names).1.1 = .ok ()) :
    isWritable c.machine.archives m names.time = true ∧ c.Clear d names := by
  unfold write at hok
  split at hok
  · cases hok
  · rename_i d₁ hmade
    split at hok
    · cases hok
    · cases hok
    · rename_i previous ws entries hcurrent hlist
      split at hok
      · rename_i hw
        dsimp only at hok
        exact ⟨hw, d₁, entries, hmade, hlist, ⟨previous, by rw [hcurrent]⟩,
          fresh_of_writeVersion hu.suits (hu.opens hmade hlist) hok⟩
      · cases hok

lemma serves_of_write (hu : c.Usable d names) (h : (c.write d m names).1 = (.ok (), d')) :
    isWritable c.machine.archives m names.time = true ∧ c.Serves names m d' := by
  obtain ⟨hw, hclear⟩ := clear_of_write hu (congrArg Prod.fst h)
  obtain ⟨d₁, ws, hwrite, hserves⟩ := exists_write (m := m) hu hw hclear
  rw [hwrite] at h
  obtain rfl : d₁ = d' := congrArg Prod.snd h
  exact ⟨hw, hserves⟩

/-! ### Reading the model -/

lemma Serves.current (h : c.Serves names m d) (hs : c.Suits names) :
    c.current d = (.ok (some names.version), []) := by
  obtain ⟨entries, hopens, hpointer, -⟩ := h
  have hread : d.read c.pointer = .ok names.version.toUTF8 := by
    rw [Disk.read, pointer, hopens.node_child isName_pointerFile hs.acceptsPointer, hpointer]
    rfl
  unfold ModelCache.current
  rw [hread]
  dsimp only
  rw [fromUTF8?_toUTF8]
  dsimp only
  rw [hs.isPlain, if_pos hs.isVersion]

lemma look_version (h : d.Opens c.folder entries) (hs : c.Suits names)
    (hversion : entry? names.version entries = some (.folder (c.versionEntries m names.time))) :
    ∀ f ∈ versionFiles c.machine.archives m names.time,
      c.look d names.version f.name = .ok (.file f.content) := by
  intro f hf
  have hname : f.name ∈ fileNames := by
    rw [← map_name_versionFiles c.machine.archives m names.time]
    exact List.mem_map_of_mem hf
  have hinner := h.child hs.version hs.acceptsVersion hversion
  change d.node ((c.folder.child names.version).child f.name) = _
  rw [hinner.node_child (isName_fileNames _ hname) (hs.files _ hname).2, entry?_versionEntries hf]

lemma Serves.look (h : c.Serves names m d) (hs : c.Suits names) :
    ∀ f ∈ versionFiles c.machine.archives m names.time,
      c.look d names.version f.name = .ok (.file f.content) := by
  obtain ⟨entries, hopens, -, hversion⟩ := h
  exact look_version hopens hs hversion

lemma Serves.usable (h : c.Serves names m d) (hs : c.Suits names) :
    c.usable d = (.ok (some names.version), []) := by
  have hmanifest : c.hasManifest d names.version = .ok true := by
    obtain ⟨f, hf, hname⟩ :
      ∃ f ∈ versionFiles c.machine.archives m names.time, f.name = manifestFile := by
      simp [versionFiles, modelFiles]
    have hlook := h.look hs f hf
    rw [hasManifest, ← hname, hlook]
    rfl
  unfold ModelCache.usable
  rw [h.current hs]
  dsimp only
  rw [hmanifest]

/-- **Whoever reads the cache gets the model.** -/
lemma Serves.read (ha : Lossless c.machine) (h : c.Serves names m d) (hs : c.Suits names)
    (hm : m.OnGrid) (hw : isWritable c.machine.archives m names.time = true) :
      c.read d = (.ok (some m.restored), []) := by
  unfold ModelCache.read
  rw [h.usable hs]
  dsimp only
  rw [load_versionFiles ha hm hw (h.look hs)]

/-! ### Removing the cache -/

lemma current_of_not_node (hf : Disk.Accepts c.folder)
    (hp : Disk.Accepts (c.folder.child pointerFile))
    (h : ∀ n, d.node c.folder ≠ .ok n) : c.current d = (.ok none, []) := by
  have hread : ∃ e, d.read c.pointer = .error e ∧ e ≠ .badName := by
    cases hpointer : d.read c.pointer with
    | ok bytes =>
      exact absurd (read_eq_ok.1 hpointer)
        (Disk.node_child_of_not_node hf h isName_pointerFile _)
    | error e =>
      refine ⟨e, rfl, ?_⟩
      rintro rfl
      exact hp.1 (read_eq_badName.1 hpointer)
  obtain ⟨e, he, hne⟩ := hread
  unfold ModelCache.current
  rw [he]
  cases e with
  | badName => exact absurd rfl hne
  | _ => rfl

lemma read_of_current (h : c.current d = (.ok none, [])) :
    c.read d = (.ok none, []) ∧ c.exists? d = (.ok false, []) := by
  have husable : c.usable d = (.ok none, []) := by
    unfold usable
    rw [h]
  unfold ModelCache.read exists?
  rw [husable]
  exact ⟨rfl, rfl⟩

lemma read_of_not_node (hs : c.Suits names) (h : ∀ n, d.node c.folder ≠ .ok n) :
    c.read d = (.ok none, []) :=
  (read_of_current (current_of_not_node hs.folder hs.acceptsPointer h)).1

/-- **A cache that has been removed is not there**, and nothing is cached. -/
lemma read_invalidate (hs : c.Suits names) (h : (c.invalidate d).1 = .ok ()) :
    (∀ n, (c.invalidate d).2.node c.folder ≠ .ok n) ∧
      c.read (c.invalidate d).2 = (.ok none, []) := by
  have hgone : ∀ n, (c.invalidate d).2.node c.folder ≠ .ok n := by
    unfold invalidate at h ⊢
    cases hnode : d.hasNode c.folder with
    | error e =>
      rw [hnode] at h
      cases h
    | ok there =>
      cases there with
      | false =>
        intro n hn
        rw [Disk.hasNode, hn] at hnode
        cases hnode
      | true =>
        rw [hnode] at h
        dsimp only at h
        refine Disk.node_removeFolder ?_
        cases hremoved : (d.removeFolder c.folder).1 with
        | error e =>
          rw [hremoved] at h
          cases h
        | ok u => rfl
  exact ⟨hgone, read_of_not_node hs hgone⟩

end SoundAtlas.ModelCache
