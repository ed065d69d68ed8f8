import SoundAtlas.Proofs.Cache.RoundTrip
import SoundAtlas.Proofs.Engine.Adoption
import SoundAtlas.Proofs.Storage.Making

/-!
What is read of a cache is valid. All that is in the files of a version has been checked once it is
read, so that indices can be built of the model and asked. No listed file can be given another size
or digest under the same checksums without the cache counting as none, but for the pointer: whoever
changes that turns to another version.
-/

namespace SoundAtlas

/-! ### Indices of a model -/

/-- Indices can be built of a model: it is only the catalog that fails, for one of its tracks, and
what is built can be used, and be searched for anything. -/
structure Model.IsIndexable (m : Model) : Prop where
  fails : ∀ {σ : Type} (catalog : Catalog) (watch : ModelIndex.BuildWatch σ) (w : σ)
    (e : ModelIndex.BuildError), (ModelIndex.build m.network.grid.width m.network.grid.height
      m.positions catalog watch w).1 = .error e →
        ∃ track ∈ m.positions, ∃ fault, catalog.track track = .error fault ∧ e = .catalog fault
  built : ∀ catalog : Catalog, (∀ track ∈ m.positions, ∃ t, catalog.track track = .ok t) →
    ∃ index, ModelIndex.build m.network.grid.width m.network.grid.height m.positions catalog
      ModelIndex.quiet () = (.ok (some index), ())
  usable : ∀ {σ : Type} (catalog : Catalog) (watch : ModelIndex.BuildWatch σ) (w : σ)
    (index : ModelIndex), (ModelIndex.build m.network.grid.width m.network.grid.height m.positions
      catalog watch w).1 = .ok (some index) →
        (⟨m, index, m.network.medianNeighborDistance⟩ : Published).IsUsable ∧
          ∀ k q, ∃ ids, Search.findSimilar m.network (index.part k) q = .ok ids

lemma Model.OnGrid.isIndexable {m : Model} (hm : m.OnGrid) : m.IsIndexable where
  fails := by
    intro σ catalog watch w e he
    have hbuilt := ModelIndex.built_addTracks catalog watch w (ModelIndex.contains_of_holds hm)
      (ModelIndex.faithful_empty m.network.grid)
    unfold ModelIndex.build at he
    rw [he] at hbuilt
    cases hbuilt with
    | failed row fault hrow hfault =>
      exact ⟨row.1, PositionSet.mem_of_mem_toList hrow, fault, hfault, rfl⟩
  built := by
    intro catalog hall
    exact ModelIndex.exists_build (ModelIndex.contains_of_holds hm) fun row hrow =>
      hall row.1 (PositionSet.mem_of_mem_toList hrow)
  usable := by
    intro σ catalog watch w index hindex
    have hcomplete : Published.Complete ⟨m, index, m.network.medianNeighborDistance⟩ catalog :=
      ⟨m.trained, ModelIndex.addTracks_quiet hindex, rfl⟩
    refine ⟨hcomplete.isUsable hm, fun k q => ?_⟩
    obtain ⟨ids, hids, -⟩ :=
      Search.exists_findSimilar m.trained (hcomplete.faithful hm k).toOnGrid q
    exact ⟨ids, hids⟩

namespace Cache

variable {machine : Machine} {look look' : Look} {m : Model} {sizes : Sizes} {v : Json}

/-! ### A version that is loaded -/

/-- A manifest has all its fields, with the schema version and with values that are these sizes. -/
structure Gives (ms : List (Json.Text × Json)) (sizes : Sizes) : Prop where
  fields : HasFields ms
  schema : ∃ x, (Json.obj ms).member "schema_version" = .ok x ∧ isSchemaVersion x = true
  width : ∃ x, (Json.obj ms).member "width" = .ok x ∧ x.toInt = .ok sizes.width
  height : ∃ x, (Json.obj ms).member "height" = .ok x ∧ x.toInt = .ok sizes.height
  dimensions : ∃ x, (Json.obj ms).member "dimensions" = .ok x ∧ x.toInt = .ok sizes.dimensions

lemma gives_of_readManifest (h : readManifest v = .ok sizes) :
    ∃ ms, v = .obj ms ∧ Gives ms sizes := by
  simp only [readManifest, bind_eq_ok, check_eq_ok, shaped_eq_ok] at h
  obtain ⟨names, hnames, hmissing, schema, hs, hschema, width, hw, width', hw', height, hh, height',
    hh', dimensions, hd, dimensions', hd', heq⟩ := h
  obtain rfl := Except.ok.inj heq
  obtain ⟨ms, rfl⟩ := obj_of_member hs
  obtain rfl := Except.ok.inj ((fieldNames_obj ms).symm.trans hnames)
  exact ⟨ms, rfl, hasFields_iff.2 (not_not.1 hmissing), ⟨schema, hs, by simpa using hschema⟩,
    ⟨width, hw, hw'⟩, ⟨height, hh, hh'⟩, ⟨dimensions, hd, hd'⟩⟩

/-- A version is valid, and its model is this one: its files are those that its checksums list, the
manifest gives the sizes of the network, none of which is zero, the arrays have these sizes and hold
the reference vectors and the weights, and the rows hold the positions, all of them on the grid. -/
structure Valid (machine : Machine) (look : Look) (m : Model) : Prop where
  intact : Intact machine look
  manifest : ∃ ms, Reads machine (look manifestFile) (.obj ms) ∧ Gives ms (sizesOf m)
  sizes : 1 ≤ m.network.grid.width ∧ 1 ≤ m.network.grid.height ∧ 1 ≤ m.network.dimensions
  trained : m.network.state = .trained
  arrays : ∃ references weights, readArrays machine.archives (look networkFile) =
    .ok (references, weights) ∧
    references.shape = [m.network.grid.width * m.network.grid.height, m.network.dimensions] ∧
    weights.shape = [m.network.dimensions] ∧
    references.matrix? m.network.grid.size m.network.dimensions = some m.network.references ∧
    weights.vector? m.network.dimensions = some m.network.weights
  rows : ∃ w rows, Reads machine (look positionsFile) w ∧ readTrackRows w = .ok rows ∧
    m.positions = positionsOfRows rows
  onGrid : m.OnGrid

/-- **A version that is loaded is valid.** -/
lemma valid_of_load (h : load machine look = .ok m) : Valid machine look m := by
  obtain ⟨hchecked, v, sizes, references, weights, w, rows, hv, hsizes, harrays, hshapes,
    hw, hrows, -,
    hnetwork, hpositions⟩ := load_eq_ok h
  obtain ⟨ms, rfl, hgives⟩ := gives_of_readManifest hsizes
  obtain ⟨htrained, hwidth, hheight, t, u, ht, hshape, hvectors, hu, hweights⟩ :=
    Network.exists_of_ofArrays hnetwork
  obtain rfl := Except.ok.inj ht
  obtain rfl := Except.ok.inj hu
  obtain ⟨hreferences, hlength⟩ := checkArrays_eq_ok.1 hshapes
  have hdimensions : (m.network.dimensions : ℤ) = sizes.dimensions := by
    rw [shapeOf, hshape] at hreferences
    simpa using (List.cons.inj hreferences).2
  have hsame : sizes = sizesOf m := by
    obtain ⟨width, height, dimensions⟩ := sizes
    rw [sizesOf, hwidth, hheight, hdimensions]
  have hlength' : weights.shape = [m.network.dimensions] := by
    rw [← hdimensions] at hlength
    exact List.map_injective_iff.2 Int.ofNat_injective hlength
  exact ⟨checkVersion_eq_ok.1 hchecked, ⟨ms, readDocument_eq_ok.1 hv, hsame ▸ hgives⟩,
    ⟨m.network.width_pos, m.network.height_pos, m.network.dimensions_pos⟩, htrained,
    ⟨references, weights, harrays, hshape, hlength', hvectors, hweights⟩,
    ⟨w, rows, readDocument_eq_ok.1 hw, hrows, hpositions⟩, onGrid_of_load h⟩

/-! ### A version that has been altered -/

lemma reads_unique {found : Except Disk.Error Node} {v w : Json} (hv : Reads machine found v)
    (hw : Reads machine found w) : v = w :=
  Except.ok.inj ((readDocument_eq_ok.2 hv).symm.trans (readDocument_eq_ok.2 hw))

/-- The checksums list a name, and under it there is a file with this content. -/
def Listed (machine : Machine) (look : Look) (name : String) (content : ByteArray) : Prop :=
  ∃ ms info, Reads machine (look checksumFile) (.obj ms) ∧ (.chars name, info) ∈ ms ∧
    look name = .ok (.file content)

/-- One content has another size or another digest. -/
def Differs (content other : ByteArray) : Prop :=
  content.size ≠ other.size ∨ Digest.text content ≠ Digest.text other

/-- The checksums are the same, but a listed file is not there as it was: if there is a file of its
name, it has another size or another digest. -/
def Altered (machine : Machine) (look look' : Look) : Prop :=
  look' checksumFile = look checksumFile ∧ ∃ name content, Listed machine look name content ∧
    ∀ other, look' name = .ok (.file other) → Differs content other

/-- **Nothing passes the checksums of another content.** -/
lemma Altered.not_intact (h : Altered machine look look') (hi : Intact machine look) :
    ¬ Intact machine look' := by
  obtain ⟨hsame, name, content, ⟨ms, info, hreads, hmem, hlook⟩, hdiffers⟩ := h
  obtain ⟨ms₁, hreads₁, -, hmatches⟩ := hi
  obtain rfl := Json.obj.inj (reads_unique hreads₁ hreads)
  rintro ⟨ms₂, hreads₂, -, hmatches'⟩
  rw [hsame] at hreads₂
  obtain rfl := Json.obj.inj (reads_unique hreads₂ hreads)
  obtain ⟨bytes, size, digest, hbytes, hsize, hint, hdigest, htext⟩ := hmatches _ hmem
  obtain ⟨bytes', size', digest', hbytes', hsize', hint', hdigest', htext'⟩ := hmatches' _ hmem
  obtain rfl : content = bytes := by
    have hfound := hlook.symm.trans hbytes
    exact Node.file.inj (Except.ok.inj hfound)
  obtain rfl := Except.ok.inj (hsize.symm.trans hsize')
  obtain rfl := Except.ok.inj (hdigest.symm.trans hdigest')
  rcases hdiffers bytes' hbytes' with hne | hne
  · exact hne (by exact_mod_cast Except.ok.inj (hint.symm.trans hint'))
  · exact hne (Json.Text.chars.inj (htext.symm.trans htext'))

/-- **Checksums that files have passed are tolerated** when others do not pass them. -/
lemma not_escapes_checkVersion (hi : Intact machine look)
    (hsame : look' checksumFile = look checksumFile) :
    ¬ Escapes (checkVersion machine look') := by
  obtain ⟨ms, hreads, -, hmatches⟩ := hi
  rw [escapes_checkVersion, hsame, ← escapes_readDocument, readDocument_eq_ok.2 hreads]
  rintro (h | ⟨v, hv, h⟩)
  · exact not_escapes_ok _ h
  obtain rfl := reads_unique hv hreads
  obtain ⟨-, h | ⟨ms', heq, before, entry, after, rfl, -, -, size, hsize, hinfinite⟩⟩ :=
    escapes_checkFiles.1 h
  · exact h ms rfl
  obtain rfl := Json.obj.inj heq
  -- the size that is listed is that of a file, so it is a whole number
  obtain ⟨bytes, size', -, -, hsize', hint, -⟩ := hmatches entry (by simp)
  obtain rfl := Except.ok.inj (hsize.symm.trans hsize')
  have hescapes := shapeEscapes_toInt.2 hinfinite
  rw [hint] at hescapes
  exact not_shapeEscapes_ok _ hescapes

lemma Altered.load (h : Altered machine look look') (hi : Intact machine look) :
    ∃ e, Cache.load machine look' = .error e ∧ ModelCache.isTolerated e = true := by
  have hnot := not_escapes_checkVersion hi h.1
  have hfails := mt checkVersion_eq_ok.1 (h.not_intact hi)
  unfold Cache.load
  cases hchecked : checkVersion machine look' with
  | ok u => exact absurd hchecked hfails
  | error e =>
    rw [hchecked, escapes_error, Bool.not_eq_false] at hnot
    exact ⟨e, rfl, hnot⟩

/-! ### Checksums that list other files -/

/-- The files of a model and others, with the checksums of all of them. -/
def listing (archives : Archive.Format) (m : Model) (time : String) (others : List File) :
    List File :=
  (modelFiles archives m time ++ others) ++ [checksumsOf (modelFiles archives m time ++ others)]

/-- **A model comes back from its files whatever else is listed**, as long as all of it is there. -/
lemma load_listing (ha : Lossless machine) {time : String} {others : List File} (hm : m.OnGrid)
    (hw : isWritable machine.archives m time = true)
    (hnames : (requiredFiles ++ others.map (·.name)).Nodup)
    (hsizes : ∀ f ∈ others, Number.withinLimit f.content.size = true)
    (h : ∀ f ∈ listing machine.archives m time others, look f.name = .ok (.file f.content)) :
    load machine look = .ok m.restored ∧ ∀ f ∈ modelFiles machine.archives m time ++ others,
      Listed machine look f.name f.content := by
  obtain ⟨hfiles, hchecksums⟩ := List.forall_mem_append.1 h
  have hnames' : ((modelFiles machine.archives m time ++ others).map (·.name)).Nodup := by
    rwa [List.map_append, map_name_modelFiles]
  have hsizes' : ∀ f ∈ modelFiles machine.archives m time ++ others,
      Number.withinLimit f.content.size = true :=
    List.forall_mem_append.2 ⟨List.all_eq_true.1 (Bool.and_eq_true_iff.1 hw).2, hsizes⟩
  have hrequired : ∀ name ∈ requiredFiles, ∃ f ∈ modelFiles machine.archives m time ++ others,
      f.name = name := by
    intro name hname
    rw [← map_name_modelFiles machine.archives m time] at hname
    obtain ⟨f, hf, hfname⟩ := List.mem_map.1 hname
    exact ⟨f, List.mem_append_left _ hf, hfname⟩
  refine ⟨load_modelFiles ha hm hw (checkVersion_checksums hnames' hsizes' hrequired h)
    (List.forall_mem_append.1 hfiles).1, fun f hf => ?_⟩
  have hlook : look checksumFile =
      .ok (.file (checksumsOf (modelFiles machine.archives m time ++ others)).content) :=
    hchecksums _ (List.mem_singleton_self _)
  exact ⟨_, (checksumMember f).2, hlook ▸ reads_checksums hnames' hsizes',
    List.mem_map.2 ⟨checksumMember f, List.mem_map_of_mem hf, rfl⟩, hfiles f hf⟩

end Cache

namespace ModelCache

open Cache

variable {c : ModelCache} {d d' : Disk} {m : Model} {name : String}

/-! ### What is read -/

lemma points_unique {other : String} (h : c.Points d name) (ho : c.Points d other) : name = other :=
  Option.some.inj (Except.ok.inj ((current_eq_some.2 h).symm.trans (current_eq_some.2 ho)))

/-- **An altered version counts as none**, as long as the pointer names it. -/
lemma read_of_altered (hp' : c.Points d' name) (hi : Intact c.machine (c.look d name))
    (hm : ∃ node, c.look d name manifestFile = .ok node)
    (ha : Altered c.machine (c.look d name) (c.look d' name)) : (c.read d').1 = .ok none := by
  obtain ⟨node, hnode⟩ := hm
  have hfound : ¬ ∃ e, (c.usable d').1 = .error e := by
    rw [usable_eq_error]
    rintro (hill | ⟨other, ho, hlong⟩)
    · obtain ⟨e, he⟩ := current_eq_error.2 hill
      rw [current_eq_some.2 hp'] at he
      cases he
    · obtain rfl := points_unique hp' ho
      exact Disk.node_ne_nameTooLong_of_ok hnode d' hlong
  have hcurrent : ∀ other, (c.usable d').1 = .ok (some other) → name = other :=
    fun other ho => points_unique hp' (usable_eq_some.1 ho).1
  obtain ⟨e, he, htolerated⟩ := ha.load hi
  unfold read
  generalize c.usable d' = found at hfound hcurrent
  obtain ⟨e' | _ | other, ws⟩ := found
  · exact absurd ⟨e', rfl⟩ hfound
  · rfl
  · obtain rfl := hcurrent other rfl
    dsimp only
    rw [he]
    dsimp only
    rw [if_pos htolerated]

/-- A disk on which the pointer still names a version and the checksums of this version are as
before, but a listed file is not. -/
structure Tampered (c : ModelCache) (name : String) (d d' : Disk) : Prop where
  points : c.Points d' name
  altered : Altered c.machine (c.look d name) (c.look d' name)

/-- **What is read of a cache is valid**, and indices can be built of it and asked. While the
checksums stay and the pointer names the version, the cache counts as none once a listed file has
another size or digest; and each can be given one, as long as it is not the pointer itself. -/
theorem read_gives_valid (c : ModelCache) (d : Disk) {m : Model} (h : (c.read d).1 = .ok (some m)) :
    ∃ name, c.Points d name ∧ Valid c.machine (c.look d name) m ∧ m.IsIndexable ∧
      (∀ d', c.Tampered name d d' → (c.read d').1 = .ok none) ∧
      ∀ key content other, Listed c.machine (c.look d name) key content → Differs content other →
        d.place ((c.version name).child key) ≠ d.place c.pointer →
        d.place ((c.version name).child key) ≠ d.place ((c.version name).child checksumFile) →
        ∃ d', d.write ((c.version name).child key) other = .ok d' ∧ (c.read d').1 = .ok none := by
  obtain ⟨name, hpoints, hmanifest, hload⟩ := read_eq_some.1 h
  have hvalid := valid_of_load hload
  refine ⟨name, hpoints, hvalid, hvalid.onGrid.isIndexable, fun d' ht => ?_,
    fun key content other hlisted hdiffers hpointer hchecksums => ?_⟩
  · exact read_of_altered ht.points hvalid.intact hmanifest ht.altered
  · obtain ⟨ms, info, hreads, hmem, hlook⟩ := id hlisted
    obtain ⟨s, hs, -⟩ := hreads
    obtain ⟨text, htext, hname⟩ := hpoints
    obtain ⟨d', hwrite, hwritten, hkept⟩ := Disk.node_write_file hlook htext hpointer.symm
    refine ⟨d', hwrite, read_of_altered ⟨text, hkept _ _ htext hpointer.symm, hname⟩ hvalid.intact
      hmanifest ⟨?_, key, content, hlisted, fun found hfound => ?_⟩⟩
    · exact (hkept _ _ hs hchecksums.symm).trans hs.symm
    · obtain rfl : other = found := Node.file.inj (Except.ok.inj (hwritten.symm.trans hfound))
      exact hdiffers

/-! ### A version that lists the pointer -/

def pinnedPointer : File :=
  ⟨"../CURRENT", "model-list".toUTF8⟩

def pinnedEntries : List (String × Node) :=
  (modelFiles .standard sparseModel firstNames.time ++
    [checksumsOf (modelFiles .standard sparseModel firstNames.time ++
      [pinnedPointer])]).map fun f =>
      (f.name, .file f.content)

/-- A disk with a cache of two versions of a model, of which the second lists the pointer. -/
def pinnedDisk (pointed : String) : Disk where
  root := .folder [("work", .folder [("cache", .folder [(pointerFile, .file pointed.toUTF8),
    ("model-1", .folder (soleCache.versionEntries sparseModel firstNames.time)),
    ("model-list", .folder pinnedEntries)])])]
  here := ["work"]

lemma read_pinnedDisk {version : String} {others : List File}
    (hname : pointerName version = version ∧ isVersionName version = true)
    (hnames : (requiredFiles ++ others.map (·.name)).Nodup)
    (hsizes : ∀ f ∈ others, Number.withinLimit f.content.size = true)
    (h : ∀ f ∈ listing .standard sparseModel firstNames.time others,
      soleCache.look (pinnedDisk version) version f.name = .ok (.file f.content)) :
    (soleCache.Points (pinnedDisk version) version ∧
        (soleCache.read (pinnedDisk version)).1 = .ok (some sparseModel.restored)) ∧
      ∀ f ∈ modelFiles .standard sparseModel firstNames.time ++ others,
        Listed soleCache.machine (soleCache.look (pinnedDisk version) version) f.name
          f.content := by
  have hw := isWritable_of_withinLimit onGrid_sparseModel withinLimit_sparseModel
  obtain ⟨hload, hlisted⟩ := load_listing lossless_soleCache onGrid_sparseModel hw hnames hsizes h
  have hpoints : soleCache.Points (pinnedDisk version) version := ⟨version, rfl, hname⟩
  have hmanifest := h ⟨manifestFile, (manifest sparseModel firstNames.time).printIndented.toUTF8⟩
    (List.Mem.head _)
  exact ⟨⟨hpoints, read_eq_some.2 ⟨version, hpoints, ⟨_, hmanifest⟩, hload⟩⟩, hlisted⟩

lemma read_pinnedDisk_first :
    (soleCache.Points (pinnedDisk "model-1") "model-1" ∧
        (soleCache.read (pinnedDisk "model-1")).1 = .ok (some sparseModel.restored)) ∧
      ∀ f ∈ modelFiles .standard sparseModel firstNames.time ++ [],
        Listed soleCache.machine (soleCache.look (pinnedDisk "model-1") "model-1") f.name
          f.content := by
  refine read_pinnedDisk (by decide) (by decide) (List.forall_mem_nil _) ?_
  simp only [listing, modelFiles, List.cons_append, List.nil_append, List.forall_mem_cons]
  exact ⟨rfl, rfl, rfl, rfl, List.forall_mem_nil _⟩

lemma read_pinnedDisk_second :
    (soleCache.Points (pinnedDisk "model-list") "model-list" ∧
        (soleCache.read (pinnedDisk "model-list")).1 = .ok (some sparseModel.restored)) ∧
      ∀ f ∈ modelFiles .standard sparseModel firstNames.time ++ [pinnedPointer],
        Listed soleCache.machine (soleCache.look (pinnedDisk "model-list") "model-list") f.name
          f.content := by
  refine read_pinnedDisk (by decide) (by decide) (by decide +kernel) ?_
  simp only [listing, modelFiles, List.cons_append, List.nil_append, List.forall_mem_cons]
  exact ⟨rfl, rfl, rfl, rfl, rfl, List.forall_mem_nil _⟩

theorem read_gives_valid_sparse :
    (soleCache.read (pinnedDisk "model-1")).1 = .ok (some sparseModel.restored) ∧
      ∃ d, (pinnedDisk "model-1").write ((soleCache.version "model-1").child manifestFile)
          ByteArray.empty = .ok d ∧ (soleCache.read d).1 = .ok none := by
  obtain ⟨⟨hpoints, hread⟩, hlisted⟩ := read_pinnedDisk_first
  obtain ⟨name, hname, -, -, -, hwrite⟩ := read_gives_valid soleCache (pinnedDisk "model-1") hread
  obtain rfl := points_unique hpoints hname
  have hmanifest :=
    hlisted ⟨manifestFile, (manifest sparseModel firstNames.time).printIndented.toUTF8⟩
    (List.Mem.head _)
  refine ⟨hread, hwrite manifestFile _ ByteArray.empty hmanifest (Or.inl ?_) ?_ ?_⟩
  · decide +kernel
  · decide +kernel
  · decide +kernel

/-- **A listed file can be changed so that another version is read**, while the checksums of the
first one stay: the pointer is such a file if the checksums list it. -/
theorem altered_pointer_unnoticed :
    (soleCache.read (pinnedDisk "model-list")).1 = .ok (some sparseModel.restored) ∧
      Listed soleCache.machine (soleCache.look (pinnedDisk "model-list") "model-list") "../CURRENT"
        "model-list".toUTF8 ∧
      Differs "model-list".toUTF8 "model-1".toUTF8 ∧
      (pinnedDisk "model-list").write ((soleCache.version "model-list").child "../CURRENT")
        "model-1".toUTF8 = .ok (pinnedDisk "model-1") ∧
      soleCache.look (pinnedDisk "model-1") "model-list" checksumFile =
        soleCache.look (pinnedDisk "model-list") "model-list" checksumFile ∧
      (soleCache.read (pinnedDisk "model-1")).1 = .ok (some sparseModel.restored) := by
  obtain ⟨⟨-, hread⟩, hlisted⟩ := read_pinnedDisk_second
  have hpinned := hlisted pinnedPointer (List.mem_append_right _ (List.mem_singleton_self _))
  refine ⟨hread, hpinned, Or.inl ?_, rfl, rfl, read_pinnedDisk_first.1.2⟩
  decide +kernel

end ModelCache

end SoundAtlas
