import SoundAtlas.Proofs.Cache.History

/-!
Readers of a cache to which a model is written. The changes of the disk by which this is done only
touch names that no reader of the version before looks at, but for the one that moves the pointer;
so a reader gets the old model before this change and the new model after it, and one that has
looked at the pointer before gets the old model whenever it opens the files.
-/

namespace SoundAtlas.ModelCache

open Cache Node

variable {c : ModelCache} {d d₀ d₁ d' : Disk} {m n : Model} {names names₀ : FreshNames}
  {entries : List (String × Node)} {touched : List String}

/-! ### What a change touches -/

/-- A change only touches some names in the folder of the cache, and what is below them. -/
inductive Touches (c : ModelCache) (touched : List String) : Effect → Prop
  | makeFolder {name : String} (hn : Disk.IsName name) (ha : Disk.Accepts (c.folder.child name))
    (ht : name ∈ touched) : Touches c touched (.makeFolder (c.folder.child name))
  | write {name : String} (hn : Disk.IsName name) (ha : Disk.Accepts (c.folder.child name))
    (ht : name ∈ touched) (content : ByteArray) :
    Touches c touched (.write (c.folder.child name) content)
  | writeInside {name inside : String} (hn : Disk.IsName name)
    (ha : Disk.Accepts (c.folder.child name)) (hi : Disk.IsName inside)
    (hai : Disk.Accepts ((c.folder.child name).child inside)) (ht : name ∈ touched)
    (content : ByteArray) : Touches c touched (.write ((c.folder.child name).child inside) content)
  | move {name other : String} (hn : Disk.IsName name) (ha : Disk.Accepts (c.folder.child name))
    (ho : Disk.IsName other) (hao : Disk.Accepts (c.folder.child other)) (ht : name ∈ touched)
    (hto : other ∈ touched) : Touches c touched (.move (c.folder.child name) (c.folder.child other))
  | removeFolder {name : String} (hn : Disk.IsName name) (ht : name ∈ touched) :
    Touches c touched (.removeFolder (c.folder.child name))

lemma Touches.step {e : Effect} (ht : c.Touches touched e) (h : d.Opens c.folder entries)
    (he : e.apply d = .ok d') :
    ∃ entries', d'.Opens c.folder entries' ∧
      ∀ name ∉ touched, entry? name entries' = entry? name entries := by
  have hset {name other : String} (ht : name ∈ touched) (ho : other ∉ touched) (n : Node)
      (es : List (String × Node)) : entry? other (setEntry name n es) = entry? other es :=
    Disk.entry?_setEntry_of_ne name n es other (ne_of_mem_of_not_mem ht ho).symm
  cases ht with
  | makeFolder hn ha ht =>
    change d.makeFolder _ = _ at he
    rw [h.makeFolder hn ha] at he
    split at he <;> cases he
    exact ⟨_, h.change_entries _, fun other ho => hset ht ho _ _⟩
  | write hn ha ht content =>
    obtain ⟨-, rfl⟩ := (h.write_eq_ok hn ha content).1 he
    exact ⟨_, h.change_entries _, fun other ho => hset ht ho _ _⟩
  | writeInside hn ha hi hai ht content =>
    obtain ⟨q, hq⟩ := Disk.place_of_write he
    obtain ⟨inner, hinner⟩ := h.exists_of_place hn ha hi hq
    obtain ⟨-, rfl⟩ := ((h.child hn ha hinner).write_eq_ok hi hai content).1 he
    rw [Disk.placeFrom_child hn]
    exact ⟨_, h.change_inner hinner _, fun other ho => hset ht ho _ _⟩
  | @move name other hn ha ho hao ht hto =>
    change d.move _ _ = _ at he
    rw [h.move hn ha ho hao] at he
    split at he <;> cases he
    refine ⟨_, (h.change_entries _).change_entries _, fun third hthird => ?_⟩
    rw [hset hto hthird]
    exact Disk.entry?_dropEntry_of_ne name entries third (ne_of_mem_of_not_mem ht hthird).symm
  | @removeFolder name hn ht =>
    obtain rfl : (d.removeFolder (c.folder.child name)).2 = d' := Except.ok.inj he
    obtain ⟨entries', hopens, hkept⟩ := h.exists_removeFolder hn
    exact ⟨entries', hopens, fun other ho => hkept other (ne_of_mem_of_not_mem ht ho).symm⟩

lemma Touches.run {effects : List Effect} (ht : ∀ e ∈ effects, c.Touches touched e)
    (h : d.Opens c.folder entries) (he : applyAll effects d = .ok d') :
    ∃ entries', d'.Opens c.folder entries' ∧
      ∀ name ∉ touched, entry? name entries' = entry? name entries := by
  induction effects generalizing d entries with
  | nil =>
    obtain rfl : d = d' := Except.ok.inj he
    exact ⟨entries, h, fun _ _ => rfl⟩
  | cons e effects ih =>
    obtain ⟨hte, hts⟩ := List.forall_mem_cons.1 ht
    obtain ⟨d₁, he₁, hrest⟩ := exists_of_applyAll_cons he
    obtain ⟨entries₁, hopens₁, hkept₁⟩ := hte.step h he₁
    obtain ⟨entries', hopens', hkept'⟩ := ih hts hopens₁ hrest
    exact ⟨entries', hopens', fun name hname => (hkept' name hname).trans (hkept₁ name hname)⟩

/-! ### The changes by which a model is written -/

/-- Nothing has any of the names under which a version is made and published. -/
structure Unused (names : FreshNames) (entries : List (String × Node)) : Prop where
  fresh : Fresh names entries
  pointer : entry? names.pointer entries = none
  distinct : names.pointer ≠ names.version

/-- The names that are in use only while a version is made, and its own. -/
def newNames (names : FreshNames) : List String :=
  [names.temporary, names.version, names.pointer]

lemma Unused.not_mem (h : Unused names entries) {name : String} {x : Node}
    (hx : entry? name entries = some x) : name ∉ newNames names := by
  have hne {other : String} (ho : entry? other entries = none) : name ≠ other := by
    rintro rfl
    cases ho.symm.trans hx
  simp [newNames, hne h.fresh.temporary, hne h.fresh.version, hne h.pointer]

lemma touches_making (hs : c.Suits names) :
    ∀ e ∈ c.making n names ++ [c.announcing names], c.Touches (newNames names) e := by
  have htemporary : names.temporary ∈ newNames names := by simp [newNames]
  intro e he
  rw [making, preparing, List.mem_append, List.mem_append, List.mem_cons, List.mem_singleton,
    List.mem_singleton] at he
  obtain ((rfl | he) | rfl) | rfl := he
  · exact .makeFolder hs.temporary hs.acceptsTemporary htemporary
  · obtain ⟨f, hf, rfl⟩ := List.mem_map.1 he
    have hname : f.name ∈ fileNames := by
      rw [← map_name_versionFiles _ n names.time]
      exact List.mem_map_of_mem hf
    exact .writeInside hs.temporary hs.acceptsTemporary (isName_fileNames _ hname)
      (hs.files _ hname).1 htemporary _
  · exact .move hs.temporary hs.acceptsTemporary hs.version hs.acceptsVersion htemporary
      (by simp [newNames])
  · exact .write hs.pointer hs.acceptsAnnouncement (by simp [newNames]) _

lemma touches_pruning (hn : ∀ e ∈ entries, Disk.IsName e.1) (previous : Option String) :
    ∀ e ∈ c.pruning entries names previous,
      c.Touches (staleVersions entries names.version previous) e := by
  intro e he
  obtain ⟨name, hname, rfl⟩ := List.mem_map.1 he
  obtain ⟨entry, hentry, rfl⟩ := List.mem_map.1 (staleVersions_spec hname).1
  exact .removeFolder (hn entry hentry) hname

lemma pointing_not_mem (hs : c.Suits names) :
    c.pointing names ∉ c.making n names ++ [c.announcing names] := by
  intro hmem
  rw [making, preparing, List.mem_append, List.mem_append, List.mem_cons, List.mem_singleton,
    List.mem_singleton] at hmem
  obtain ((h | h) | h) | h := hmem
  · cases h
  · obtain ⟨f, -, hf⟩ := List.mem_map.1 h
    cases hf
  · have hpath : c.folder.child pointerFile = c.folder.child names.version := (Effect.move.inj h).2
    rw [Disk.child_eq isName_pointerFile, Disk.child_eq hs.version] at hpath
    have hparts := List.append_cancel_left (congrArg Path.parts hpath)
    exact hs.version_ne_pointerFile (List.singleton_injective hparts).symm
  · cases h

/-! ### What readers find -/

/-- A version is in the folder with all its files, whether or not it is the current one. -/
def Keeps (c : ModelCache) (names : FreshNames) (m : Model) (d : Disk) : Prop :=
  ∃ entries, d.Opens c.folder entries ∧
    entry? names.version entries = some (.folder (c.versionEntries m names.time))

lemma Serves.keeps (h : c.Serves names m d) : c.Keeps names m d := by
  obtain ⟨entries, hopens, -, hversion⟩ := h
  exact ⟨entries, hopens, hversion⟩

lemma Keeps.look (h : c.Keeps names m d) (hs : c.Suits names) :
    ∀ f ∈ versionFiles c.machine.archives m names.time,
    c.look d names.version f.name = .ok (.file f.content) := by
  obtain ⟨entries, hopens, hversion⟩ := h
  exact look_version hopens hs hversion

lemma Keeps.load (ha : Lossless c.machine) (h : c.Keeps names m d) (hs : c.Suits names)
    (hm : m.OnGrid) (hw : isWritable c.machine.archives m names.time = true) :
      load c.machine (c.look d names.version) = .ok m.restored :=
  load_versionFiles ha hm hw (h.look hs)

lemma Serves.eq_of_read (ha : Lossless c.machine) (h : c.Serves names m d) (hs : c.Suits names)
    (hw : isWritable c.machine.archives m names.time = true) {old : Model} {ws : List Warning}
    (hread : c.read d = (.ok (some old), ws)) : old = m.restored ∧ m.OnGrid := by
  unfold ModelCache.read at hread
  rw [h.usable hs] at hread
  dsimp only at hread
  split at hread
  · rename_i loaded hload
    obtain rfl : loaded = old := by simpa using congrArg Prod.fst hread
    exact eq_restored_of_load ha hw (h.look hs) hload
  · split at hread <;> cases hread

lemma exists_of_prefix {effects done : List Effect} (h : applyAll effects d = .ok d')
    (hd : done <+: effects) : ∃ d₁, applyAll done d = .ok d₁ := by
  obtain ⟨rest, rfl⟩ := hd
  obtain ⟨d₁, hd₁, -⟩ := exists_of_applyAll_append h
  exact ⟨d₁, hd₁⟩

lemma prefix_cases {α : Type} {before after done : List α} {x : α}
    (h : done <+: before ++ x :: after) :
    done <+: before ∨ ∃ rest, rest <+: after ∧ done = before ++ x :: rest := by
  rcases List.prefix_or_prefix_of_prefix h (List.prefix_append before (x :: after)) with hb | hb
  · exact Or.inl hb
  · obtain ⟨tail, rfl⟩ := hb
    rw [List.prefix_append_right_inj, List.prefix_cons_iff] at h
    obtain rfl | ⟨rest, rfl, hrest⟩ := h
    · exact Or.inl (by simp)
    · exact Or.inr ⟨rest, hrest, rfl⟩

section Phases

variable (hopens : d.Opens c.folder entries)
  (hpointer : entry? pointerFile entries = some (.file names₀.version.toUTF8))
  (hversion : entry? names₀.version entries = some (.folder (c.versionEntries m names₀.time)))
  (hs : c.Suits names) (hnew : Unused names entries)

include hopens hpointer hversion hs hnew

/-- **Until the pointer is moved** the old version is served. -/
lemma serves_before {done : List Effect} (hdone : done <+: c.making n names ++ [c.announcing names])
    (hd : applyAll done d = .ok d₁) : c.Serves names₀ m d₁ := by
  obtain ⟨entries', hopens', hkept⟩ :=
    Touches.run (fun e he => touches_making hs e (hdone.subset he)) hopens hd
  exact ⟨entries', hopens', (hkept _ (hnew.not_mem hpointer)).trans hpointer,
    (hkept _ (hnew.not_mem hversion)).trans hversion⟩

/-- **Once the pointer is moved** the new version is served, and the old one is kept. -/
lemma serves_after (hn : ∀ e ∈ entries, Disk.IsName e.1) {done : List Effect}
    (hdone : done <+: c.pruning entries names (some names₀.version))
    (hd : applyAll (c.making n names ++ ([c.announcing names, c.pointing names] ++ done)) d =
      .ok d₁) : c.Serves names n d₁ ∧ c.Keeps names₀ m d₁ := by
  obtain ⟨made, hmade, hmadeOpens⟩ := applyAll_making (m := n) hs hopens hnew.fresh
  obtain ⟨moved, hmoved, hmovedOpens⟩ := applyAll_pointing hs hmadeOpens
    ((movable_append hs hnew.fresh.version).2 ⟨⟨fun inner => by simp [hnew.pointer],
      fun inner => by simp [hpointer]⟩, hnew.distinct⟩)
  rw [applyAll_append hmade, applyAll_append hmoved] at hd
  obtain ⟨entries', hopens', hkept⟩ :=
    Touches.run (fun e he => touches_pruning hn _ e (hdone.subset he)) hmovedOpens hd
  -- what an entry is once the pointer has been moved
  have hentry (name : String) (h₁ : pointerFile ≠ name) (h₂ : names.pointer ≠ name) :
      entry? name (pointed names (entries ++
        [(names.version, .folder (c.versionEntries n names.time))])) =
      if names.version = name then some (.folder (c.versionEntries n names.time))
        else entry? name entries := by
    rw [pointed, entry?_setEntry, if_neg h₁, entry?_dropEntry, if_neg h₂,
      ← setEntry_of_none hnew.fresh.version, entry?_setEntry]
  have hold : pointerFile ≠ names₀.version := fun heq => by
    rw [heq, hversion] at hpointer
    cases hpointer
  have hunused := hnew.not_mem hversion
  simp only [newNames, List.mem_cons, List.not_mem_nil, or_false, not_or] at hunused
  refine ⟨⟨entries', hopens', ?_, ?_⟩, entries', hopens', ?_⟩
  · rw [hkept _ fun hmem => (staleVersions_spec hmem).2.2 rfl, pointed, entry?_setEntry, if_pos rfl]
  · rw [hkept _ fun hmem => (staleVersions_spec hmem).2.1 rfl,
      hentry _ hs.version_ne_pointerFile.symm hnew.distinct, if_pos rfl]
  · rw [hkept _ fun hmem => (mem_staleVersions.1 hmem).2.2.2 rfl,
      hentry _ hold (Ne.symm hunused.2.2), if_neg (Ne.symm hunused.2.1), hversion]

/-- **What is served while a model is written**, and that the old version is kept. -/
lemma serves_during (hn : ∀ e ∈ entries, Disk.IsName e.1) {done : List Effect}
    (hdone : done <+: c.writing n names entries (some names₀.version))
    (hd : applyAll done d = .ok d₁) : c.Keeps names₀ m d₁ ∧
      ((c.pointing names ∉ done ∧ c.Serves names₀ m d₁) ∨
        (c.pointing names ∈ done ∧ c.Serves names n d₁)) := by
  have hwriting : c.writing n names entries (some names₀.version) =
      (c.making n names ++ [c.announcing names]) ++
        c.pointing names :: c.pruning entries names (some names₀.version) := by
    simp [writing, publishing]
  rw [hwriting] at hdone
  obtain hbefore | ⟨rest, hrest, rfl⟩ := prefix_cases hdone
  · have hserves := serves_before hopens hpointer hversion hs hnew hbefore hd
    exact ⟨hserves.keeps, Or.inl ⟨fun hmem => pointing_not_mem hs (hbefore.subset hmem), hserves⟩⟩
  · rw [List.append_assoc] at hd
    obtain ⟨hserves, hkeeps⟩ := serves_after hopens hpointer hversion hs hnew hn hrest hd
    exact ⟨hkeeps, Or.inr ⟨by simp, hserves⟩⟩

end Phases

/-- **All changes are made** where no name is in use. -/
lemma exists_writing (hopens : d.Opens c.folder entries) (hs : c.Suits names)
    (hn : ∀ e ∈ entries, Disk.IsName e.1) (hpointer : NoFolder pointerFile entries)
    (hnew : Unused names entries) (previous : Option String) :
    ∃ d', applyAll (c.writing n names entries previous) d = .ok d' ∧
      c.writeVersion d n names entries previous = (.ok (), d') := by
  obtain ⟨made, hmade, hmadeOpens⟩ := applyAll_making (m := n) hs hopens hnew.fresh
  obtain ⟨d', hd', -⟩ := serves_of_publishing (m := n) hs hmadeOpens
    (by rw [← setEntry_of_none hnew.fresh.version, entry?_setEntry, if_pos rfl]) hn previous
    ((movable_append hs hnew.fresh.version).2
      ⟨⟨fun inner => by simp [hnew.pointer], hpointer⟩, hnew.distinct⟩)
  refine ⟨d', (applyAll_append hmade _).trans hd', ?_⟩
  unfold writeVersion
  rw [hmade]
  dsimp only
  rw [hd']

/-- **A reader gets the old model or the new one**, whenever it reads while a model is written to a
cache that another one has been written to: the old one until the pointer is moved, and the new one
from then on. The version that was the current one gives the old model all the time, also if each of
its files is opened at another time. -/
theorem readers_get_old_or_new (ha : Lossless c.machine) (hu₀ : c.Usable d₀ names₀)
    (hwritten : (c.write d₀ m names₀).1 = (.ok (), d)) {old : Model} {ws : List Warning}
    (hread : c.read d = (.ok (some old), ws)) (hu : c.Usable d names)
    (hlist : d.list c.folder = .ok entries) (hnew : Unused names entries) (hn : n.OnGrid)
    (hl : WithinLimit c.machine.archives n names.time) :
    (∃ d', c.write d n names = ((.ok (), d'), []) ∧
      applyAll (c.writing n names entries (some names₀.version)) d = .ok d') ∧
    c.current d = (.ok (some names₀.version), []) ∧
    (∀ done, done <+: c.writing n names entries (some names₀.version) →
      ∃ d₁, applyAll done d = .ok d₁ ∧
        (c.pointing names ∉ done → c.read d₁ = (.ok (some old), [])) ∧
        (c.pointing names ∈ done → c.read d₁ = (.ok (some n.restored), [])) ∧
        load c.machine (c.look d₁ names₀.version) = .ok old) ∧
    ∀ look : Look, (∀ name, ∃ done d₁, done <+: c.writing n names entries (some names₀.version) ∧
        applyAll done d = .ok d₁ ∧ look name = c.look d₁ names₀.version name) →
      load c.machine look = .ok old := by
  obtain ⟨hw₀, hserves⟩ := serves_of_write hu₀ hwritten
  obtain ⟨rfl, hm⟩ := hserves.eq_of_read ha hu₀.suits hw₀ hread
  have hcurrent := hserves.current hu₀.suits
  obtain ⟨entries', hopens, hpointer, hversion⟩ := hserves
  obtain rfl : entries' = entries := Except.ok.inj (hopens.list.symm.trans hlist)
  have hnames := hu.named d entries' hopens.makeFolders hlist
  have hw := isWritable_of_withinLimit hn hl
  obtain ⟨d', hwriting, hwrite⟩ := exists_writing (n := n) hopens hu.suits hnames
    (fun inner => by simp [hpointer]) hnew (some names₀.version)
  have hduring {done : List Effect} {d₁ : Disk}
      (hdone : done <+: c.writing n names entries' (some names₀.version))
      (hd₁ : applyAll done d = .ok d₁) :=
    serves_during (n := n) hopens hpointer hversion hu.suits hnew hnames hdone hd₁
  refine ⟨⟨d', ?_, hwriting⟩, hcurrent, fun done hdone => ?_, fun look hlook => ?_⟩
  · unfold ModelCache.write
    rw [hopens.makeFolders]
    dsimp only
    rw [hcurrent, hlist]
    dsimp only
    rw [if_pos hw, hwrite]
  · obtain ⟨d₁, hd₁⟩ := exists_of_prefix hwriting hdone
    obtain ⟨hkeeps, hphase⟩ := hduring hdone hd₁
    refine ⟨d₁, hd₁, fun hmem => ?_, fun hmem => ?_, hkeeps.load ha hu₀.suits hm hw₀⟩
    · obtain ⟨-, hold⟩ | ⟨hmem', -⟩ := hphase
      · exact hold.read ha hu₀.suits hm hw₀
      · exact absurd hmem' hmem
    · obtain ⟨hmem', -⟩ | ⟨-, hnext⟩ := hphase
      · exact absurd hmem hmem'
      · exact hnext.read ha hu.suits hn hw
  · refine load_versionFiles ha hm hw₀ fun f hf => ?_
    obtain ⟨done, d₁, hdone, hd₁, heq⟩ := hlook f.name
    exact heq.trans ((hduring hdone hd₁).1.look hu₀.suits f hf)

def secondNames : FreshNames :=
  laterNames "model-2" ".tmp-2" ".pointer-2.tmp"

lemma exists_soleCache : ∃ d entries,
    (soleCache.write Disk.empty sparseModel firstNames).1 = (.ok (), d) ∧
      d.Opens soleCache.folder entries ∧
        entries.Perm (soleCache.contents [⟨sparseModel, firstNames⟩]) := by
  obtain ⟨d, hrun, hstands⟩ := (Stands.vacant vacant_soleCache).write
    (w := ⟨sparseModel, firstNames⟩)
    (by simpa using proper_soleActions _ List.mem_cons_self) (List.nodup_singleton _)
  have hwritten := run_write_eq_ok.1 hrun
  cases hstands with
  | holding _ hopens hperm => exact ⟨d, _, hwritten, hopens, hperm⟩

lemma usable_secondNames {d : Disk} {entries : List (String × Node)}
    (hopens : d.Opens soleCache.folder entries)
    (hperm : entries.Perm (soleCache.contents [⟨sparseModel, firstNames⟩])) :
    soleCache.Usable d secondNames := by
  refine ⟨by decide +kernel, hopens.direct, fun d₁ entries₁ hmade hlist e he => ?_⟩
  obtain rfl : d = d₁ := Except.ok.inj (hopens.makeFolders.symm.trans hmade)
  obtain rfl : entries = entries₁ := Except.ok.inj (hopens.list.symm.trans hlist)
  have hnames : ∀ name ∈ (soleCache.contents [⟨sparseModel, firstNames⟩]).map (·.1),
      Disk.IsName name := by
    decide +kernel
  exact hnames _ (List.mem_map_of_mem (hperm.mem_iff.1 he))

lemma unused_secondNames {entries : List (String × Node)}
    (hperm : entries.Perm (soleCache.contents [⟨sparseModel, firstNames⟩])) :
      Unused secondNames entries := by
  have hnone {name : String}
    (h : name ∉ (soleCache.contents [⟨sparseModel, firstNames⟩]).map (·.1)) :
      entry? name entries = none :=
    entry?_eq_none.2 (mt (hperm.map _).mem_iff.1 h)
  exact ⟨⟨hnone (by decide +kernel), hnone (by decide +kernel), by decide⟩,
    hnone (by decide +kernel), by decide⟩

theorem readers_get_old_or_new_sole : ∃ d entries,
    (Lossless soleCache.machine ∧ soleCache.Usable Disk.empty firstNames ∧
      (soleCache.write Disk.empty sparseModel firstNames).1 = (.ok (), d) ∧
      soleCache.read d = (.ok (some sparseModel.restored), [])) ∧
    (soleCache.Usable d secondNames ∧ d.list soleCache.folder = .ok entries ∧
      Unused secondNames entries ∧ laterModel.OnGrid ∧
      WithinLimit soleCache.machine.archives laterModel secondNames.time) ∧
    sparseModel.restored ≠ laterModel.restored ∧
    (∃ d', soleCache.write d laterModel secondNames = ((.ok (), d'), [])) ∧
    ∀ done, done <+: soleCache.writing laterModel secondNames entries (some firstNames.version) →
      ∃ d₁, applyAll done d = .ok d₁ ∧
        (soleCache.pointing secondNames ∉ done →
          soleCache.read d₁ = (.ok (some sparseModel.restored), [])) ∧
        (soleCache.pointing secondNames ∈ done →
          soleCache.read d₁ = (.ok (some laterModel.restored), [])) ∧
        load soleCache.machine (soleCache.look d₁ firstNames.version) =
          .ok sparseModel.restored := by
  obtain ⟨d, entries, hwritten, hopens, hperm⟩ := exists_soleCache
  obtain ⟨hw, hserves⟩ := serves_of_write usable_soleCache hwritten
  have hread := hserves.read lossless_soleCache usable_soleCache.suits onGrid_sparseModel hw
  have husable := usable_secondNames hopens hperm
  have hunused := unused_secondNames hperm
  have hlimit : WithinLimit soleCache.machine.archives laterModel secondNames.time :=
    withinLimit_laterModel
  obtain ⟨⟨d', hwrite, -⟩, -, hduring, -⟩ := readers_get_old_or_new lossless_soleCache
    usable_soleCache hwritten hread husable hopens.list hunused onGrid_laterModel hlimit
  exact ⟨d, entries, ⟨lossless_soleCache, usable_soleCache, hwritten, hread⟩,
    ⟨husable, hopens.list, hunused, onGrid_laterModel, hlimit⟩, restored_ne_laterModel,
    ⟨d', hwrite⟩, hduring⟩

end SoundAtlas.ModelCache
