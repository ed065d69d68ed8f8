import SoundAtlas.Proofs.Cache.Escape
import SoundAtlas.Proofs.Cache.Rows
import SoundAtlas.Proofs.Index.Derived
import SoundAtlas.Proofs.Network.Arrays
import SoundAtlas.Proofs.Storage.ArchiveRoundTrip

/-!
The files of a version, read back. Everything that the reader checks holds of what the writer has
written, so that the model comes back: its sizes, its reference vectors and weights bit by bit, and
the positions of its tracks.
-/

namespace SoundAtlas

/-- The model as it comes back from a cache. -/
def Model.restored (m : Model) : Model where
  network := m.network.restored
  positions := m.positions
  trained := rfl

namespace Cache

/-- A machine loses nothing of the arrays of a network in their file. -/
abbrev Lossless (machine : Machine) : Prop :=
  machine.archives.Lossless referencesName weightsName

variable {machine : Machine} {m : Model} {time : String} {look : Look}

/-! ### Documents -/

lemma legible_manifest (h : (manifest m time).isWritable = true) {depth : ℕ} :
    Json.Legible (depth + 1) (manifest m time) := by
  have hints := isWritable_object.1 h
  simp only [List.forall_mem_cons] at hints
  obtain ⟨hschema, hwidth, hheight, hdimensions, hcount, -⟩ := hints
  refine .object (by simp) ?_
  simp only [List.forall_mem_cons]
  exact ⟨.int (isWritable_int.1 hschema), .int (isWritable_int.1 hwidth),
    .int (isWritable_int.1 hheight), .int (isWritable_int.1 hdimensions),
    .int (isWritable_int.1 hcount), .string time, List.forall_mem_nil _⟩

lemma legible_checksums {files : List File} (hnames : (files.map (·.name)).Nodup)
    (hsizes : ∀ f ∈ files, Number.withinLimit f.content.size = true) {depth : ℕ} :
    Json.Legible (depth + 2) (Json.object (files.map checksumMember)) := by
  refine .object ?_ ?_
  · rwa [List.map_map]
  · intro e he
    obtain ⟨f, hf, rfl⟩ := List.mem_map.1 he
    exact .object (by simp) (forall_mem_pair.2 ⟨.string _, .int (hsizes f hf)⟩)

/-- **A document is read back from the file it was written to**, if it is nested four deep
at most. -/
lemma readDocument_render {l : Json.Layout} (hl : l.Spaced) {v : Json}
    (hv : ∀ depth, Json.Legible (depth + 4) v) :
    readDocument machine (.ok (.file (v.render l 0).toUTF8)) = .ok v := by
  obtain ⟨depth, hdepth⟩ := Nat.exists_eq_add_of_le' machine.four_le_readDepth
  rw [readDocument_file, hdepth, Json.parse_render hl (hv depth)]
  rfl

/-! ### Checks -/

lemma checkEntry_checksumMember {f : File} (h : look f.name = .ok (.file f.content)) :
    checkEntry look (.chars f.name, (checksumMember f).2) = .ok () := by
  have hsize : (checksumMember f).2.member "size" = .ok (.int f.content.size) := rfl
  have hdigest : (checksumMember f).2.member "sha256" = .ok (.string (Digest.text f.content)) := rfl
  simp only [checkEntry, lookUp, h]
  rw [hsize, hdigest]
  simp [Disk.present, shaped, Except.mapError, Json.toInt, Disk.size, Disk.content, Json.string,
    Json.plain, bind, Except.bind, pure, Except.pure]

lemma requireEntry_checksums {files : List File} {f : File} (hf : f ∈ files) :
    requireEntry (Json.object (files.map checksumMember)) f.name = .ok () := by
  have hfind : (Json.find? (.chars f.name) ((files.map checksumMember).map
      fun e => ((.chars e.1 : Json.Text), e.2))).isSome = true := by
    rw [Json.find?, Option.isSome_map, List.find?_isSome]
    refine ⟨(.chars f.name, (checksumMember f).2), ?_, by simp⟩
    exact List.mem_map.2 ⟨checksumMember f, List.mem_map_of_mem hf, rfl⟩
  have hholds : holds f.name (Json.object (files.map checksumMember)) = .ok true :=
    congrArg Except.ok hfind
  rw [requireEntry, hholds]
  rfl

/-- Files pass their own checksums, if none is missing that must be listed. -/
lemma checkFiles_checksums {files : List File}
    (hrequired : ∀ name ∈ requiredFiles, ∃ f ∈ files, f.name = name)
    (h : ∀ f ∈ files, look f.name = .ok (.file f.content)) :
    checkFiles look (Json.object (files.map checksumMember)) = .ok () := by
  have hlisted : ∀ name ∈ requiredFiles,
      requireEntry (Json.object (files.map checksumMember)) name = .ok () := by
    intro name hname
    obtain ⟨f, hf, rfl⟩ := hrequired name hname
    exact requireEntry_checksums hf
  have hentries : ∀ e ∈ (files.map checksumMember).map
      (fun e => ((.chars e.1 : Json.Text), e.2)), checkEntry look e = .ok () := by
    intro e he
    rw [List.map_map] at he
    obtain ⟨f, hf, rfl⟩ := List.mem_map.1 he
    exact checkEntry_checksumMember (h f hf)
  unfold checkFiles
  exact bind_eq_ok.2 ⟨(), forM_eq_ok.2 hlisted, forM_eq_ok.2 hentries⟩

def checksumsOf (files : List File) : File :=
  ⟨checksumFile, (Json.object (files.map checksumMember)).printIndented.toUTF8⟩

lemma reads_checksums {files : List File} (hnames : (files.map (·.name)).Nodup)
    (hsizes : ∀ f ∈ files, Number.withinLimit f.content.size = true) :
    Reads machine (.ok (.file (checksumsOf files).content))
      (Json.object (files.map checksumMember)) :=
  readDocument_eq_ok.1
    (readDocument_render Json.Layout.spaced_indented fun _ => legible_checksums hnames hsizes)

lemma checkVersion_checksums {files : List File} (hnames : (files.map (·.name)).Nodup)
    (hsizes : ∀ f ∈ files, Number.withinLimit f.content.size = true)
    (hrequired : ∀ name ∈ requiredFiles, ∃ f ∈ files, f.name = name)
    (h : ∀ f ∈ files ++ [checksumsOf files], look f.name = .ok (.file f.content)) :
    checkVersion machine look = .ok () := by
  obtain ⟨hfiles, hchecksums⟩ := List.forall_mem_append.1 h
  have hlook : look checksumFile = .ok (.file (checksumsOf files).content) :=
    hchecksums _ (List.mem_singleton_self _)
  have hread : readDocument machine (.ok (.file (checksumsOf files).content)) = _ :=
    readDocument_eq_ok.2 (reads_checksums hnames hsizes)
  unfold checkVersion
  rw [hlook]
  exact bind_eq_ok.2 ⟨true, rfl, bind_eq_ok.2 ⟨_, hread, checkFiles_checksums hrequired hfiles⟩⟩

lemma map_name_modelFiles (archives : Archive.Format) (m : Model) (time : String) :
    (modelFiles archives m time).map (·.name) = requiredFiles := rfl

lemma checkVersion_versionFiles (hw : isWritable machine.archives m time = true)
    (h : ∀ f ∈ versionFiles machine.archives m time, look f.name = .ok (.file f.content)) :
    checkVersion machine look = .ok () := by
  have hsizes : ∀ f ∈ modelFiles machine.archives m time,
      Number.withinLimit f.content.size = true :=
    List.all_eq_true.1 (Bool.and_eq_true_iff.1 hw).2
  refine checkVersion_checksums ?_ hsizes (fun name hname => ?_) h
  · rw [map_name_modelFiles]
    decide
  · rw [← map_name_modelFiles machine.archives m time] at hname
    exact List.mem_map.1 hname

def sizesOf (m : Model) : Sizes :=
  ⟨m.network.grid.width, m.network.grid.height, m.network.dimensions⟩

lemma readManifest_manifest (m : Model) (time : String) :
    readManifest (manifest m time) = .ok (sizesOf m) := by
  have hfields : fieldNames (manifest m time) = .ok (manifestFields.map .chars) := rfl
  have hmissing : missingFields (manifestFields.map .chars) = [] := by
    have hnone : (manifestFields.filter fun f =>
        !(manifestFields.map Json.Text.chars).contains (.chars f)) = [] := by
      decide
    rw [missingFields, hnone, List.mergeSort_nil]
  unfold readManifest
  rw [hfields]
  refine bind_eq_ok.2 ⟨_, rfl, ?_⟩
  rw [hmissing]
  rfl

lemma readArrays_networkArchive (ha : Lossless machine) (n : Network) :
    readArrays machine.archives (.ok (.file (machine.archives.write (networkArchive n)))) =
      .ok (referenceTensor n, Tensor.ofList n.weights.toList) := by
  obtain ⟨a, hread, hreferences, hweights⟩ := ha (referenceTensor n) (.ofList n.weights.toList)
  unfold readArrays
  refine bind_eq_ok.2 ⟨_, rfl, bind_eq_ok.2 ⟨a, mapError_eq_ok.2 hread, ?_⟩⟩
  rw [hreferences, hweights]
  rfl

lemma checkArrays_sizesOf (m : Model) :
    checkArrays (sizesOf m) (referenceTensor m.network)
      (Tensor.ofList m.network.weights.toList) = .ok () := by
  have hreferences : shapeOf (referenceTensor m.network) =
      [(m.network.grid.width : ℤ) * m.network.grid.height, (m.network.dimensions : ℤ)] := by
    simp [shapeOf, referenceTensor, Grid.size]
  have hweights : shapeOf (Tensor.ofList m.network.weights.toList) =
      [(m.network.dimensions : ℤ)] := by
    simp [shapeOf, Tensor.ofList]
  simp only [checkArrays, sizesOf, hreferences, hweights, ne_eq, not_true_eq_false, if_false]
  rfl

lemma firstOutside_eq_none (hm : m.OnGrid) (tracks : List ℤ) :
    firstOutside (sizesOf m) tracks m.positions = none := by
  rw [firstOutside, List.findSome?_eq_none_iff]
  intro track _
  rw [Option.map_eq_none_iff, List.find?_eq_none]
  intro p hp
  obtain ⟨⟨hx, hx'⟩, hy, hy'⟩ := hm track p (Std.ExtTreeSet.mem_toList.1 hp)
  simp [Sizes.contain, sizesOf, hx, hx', hy, hy']

/-- **The files of a model give the model back** if they pass the checksums, unless a track lies
outside. -/
lemma load_modelFiles_eq (ha : Lossless machine) (hw : isWritable machine.archives m time = true)
    (hchecked : checkVersion machine look = .ok ())
    (h : ∀ f ∈ modelFiles machine.archives m time, look f.name = .ok (.file f.content)) :
    load machine look = match firstOutside (sizesOf m)
      (m.positions.toList.map (·.1)) m.positions with
      | some (track, p) =>
        .error (.invalid (.outside track p m.network.grid.width m.network.grid.height))
      | none => .ok m.restored := by
  simp only [modelFiles, List.forall_mem_cons] at h
  obtain ⟨hmanifest, hnetwork, hpositions, -⟩ := h
  obtain ⟨hnumbers, -⟩ := Bool.and_eq_true_iff.1 hw
  obtain ⟨hsizes, hrows⟩ := Bool.and_eq_true_iff.1 hnumbers
  have hdocument : readDocument machine (.ok (.file (manifest m time).printIndented.toUTF8)) =
      .ok (manifest m time) :=
    readDocument_render Json.Layout.spaced_indented fun _ => legible_manifest hsizes
  have hdocument' : readDocument machine
      (.ok (.file (Json.arr (positionsRows m.positions)).print.toUTF8)) =
      .ok (.arr (positionsRows m.positions)) :=
    readDocument_render Json.Layout.spaced_line fun _ => legible_positionsRows hrows
  have hrestored : Network.ofArrays (sizesOf m).width (sizesOf m).height
      (.ok (referenceTensor m.network)) (.ok (Tensor.ofList m.network.weights.toList)) =
        .ok m.network.restored := ofArrays_networkArchive m.network
  have hpositions' : positionsOfRows m.positions.toList = m.positions := by
    rw [positionsOfRows, ofList_toList_map]
  unfold load
  rw [hchecked, hmanifest, hnetwork, hpositions, hdocument, hdocument']
  simp only [bind, Except.bind, readManifest_manifest, readArrays_networkArchive ha,
    checkArrays_sizesOf, readTrackRows_positionsRows, shaped, Except.mapError, hpositions',
      hrestored]
  cases firstOutside (sizesOf m) (m.positions.toList.map (·.1)) m.positions <;> rfl

lemma load_modelFiles (ha : Lossless machine) (hm : m.OnGrid)
    (hw : isWritable machine.archives m time = true)
    (hchecked : checkVersion machine look = .ok ())
    (h : ∀ f ∈ modelFiles machine.archives m time, look f.name = .ok (.file f.content)) :
    load machine look = .ok m.restored := by
  rw [load_modelFiles_eq ha hw hchecked h, firstOutside_eq_none hm]

lemma load_versionFiles (ha : Lossless machine) (hm : m.OnGrid)
    (hw : isWritable machine.archives m time = true)
    (h : ∀ f ∈ versionFiles machine.archives m time, look f.name = .ok (.file f.content)) :
    load machine look = .ok m.restored :=
  load_modelFiles ha hm hw (checkVersion_versionFiles hw h) (List.forall_mem_append.1 h).1

/-! ### What is loaded -/

lemma getD_positionsOfRows {rows : List (ℤ × PositionSet)} {track : ℤ}
    (h : track ∉ rows.map (·.1)) : (positionsOfRows rows).getD track ∅ = ∅ := by
  refine Std.ExtTreeMap.getD_eq_fallback ?_
  rw [positionsOfRows]
  simpa [Std.ExtTreeMap.mem_ofList] using h

lemma checkArrays_eq_ok {sizes : Sizes} {references weights : Tensor UInt64} :
    checkArrays sizes references weights = .ok () ↔
      shapeOf references = [sizes.width * sizes.height, sizes.dimensions] ∧
        shapeOf weights = [sizes.dimensions] := by
  unfold checkArrays
  by_cases hr : shapeOf references = [sizes.width * sizes.height, sizes.dimensions]
  · simp only [hr, ne_eq, not_true_eq_false, if_false, true_and]
    exact last_check_eq_ok.trans (by simp)
  · refine iff_of_false (fun h => ?_) fun h => hr h.1
    simp only [ne_eq, hr, not_false_eq_true, if_true] at h
    split at h <;> cases h

lemma load_eq_ok (h : load machine look = .ok m) : checkVersion machine look = .ok () ∧
    ∃ v sizes references weights w rows,
      readDocument machine (look manifestFile) = .ok v ∧ readManifest v = .ok sizes ∧
      readArrays machine.archives (look networkFile) = .ok (references, weights) ∧
      checkArrays sizes references weights = .ok () ∧
      readDocument machine (look positionsFile) = .ok w ∧ readTrackRows w = .ok rows ∧
      firstOutside sizes (rows.map (·.1)) (positionsOfRows rows) = none ∧
      Network.ofArrays sizes.width sizes.height (.ok references) (.ok weights) = .ok m.network ∧
      m.positions = positionsOfRows rows := by
  unfold load at h
  obtain ⟨⟨⟩, hchecked, h⟩ := bind_eq_ok.1 h
  obtain ⟨v, hv, h⟩ := bind_eq_ok.1 h
  obtain ⟨sizes, hsizes, h⟩ := bind_eq_ok.1 h
  obtain ⟨⟨references, weights⟩, harrays, h⟩ := bind_eq_ok.1 h
  obtain ⟨⟨⟩, hshapes, h⟩ := bind_eq_ok.1 h
  obtain ⟨w, hw, h⟩ := bind_eq_ok.1 h
  obtain ⟨rows, hrows, h⟩ := bind_eq_ok.1 h
  dsimp only at h
  split at h
  · cases h
  · rename_i houtside
    obtain ⟨n, hn, h⟩ := bind_eq_ok.1 h
    rw [mapError_eq_ok] at hn h
    unfold Model.make at h
    split at h
    · obtain rfl := Except.ok.inj h
      exact ⟨hchecked, v, sizes, references, weights, w, rows, hv, hsizes, harrays, hshapes, hw,
        shaped_eq_ok.1 hrows, houtside, hn, rfl⟩
    · cases h

lemma onGrid_of_load (h : load machine look = .ok m) : m.OnGrid := by
  obtain ⟨-, v, sizes, references, weights, w, rows, -, -, -, -, -, -, houtside, hnetwork,
    hpositions⟩ := load_eq_ok h
  obtain ⟨-, hwidth, hheight, -⟩ := Network.exists_of_ofArrays hnetwork
  intro track p hp
  rw [hpositions] at hp
  by_cases htrack : track ∈ rows.map (·.1)
  · rw [firstOutside, List.findSome?_eq_none_iff] at houtside
    have hnone := houtside track htrack
    rw [Option.map_eq_none_iff, List.find?_eq_none] at hnone
    have hp' := hnone p (Std.ExtTreeSet.mem_toList.2 hp)
    simp only [Sizes.contain, Bool.not_eq_true, Bool.and_eq_true, decide_eq_true_eq,
      Bool.not_eq_false', ← hwidth, ← hheight] at hp'
    exact hp'
  · rw [getD_positionsOfRows htrack] at hp
    exact absurd hp Std.ExtTreeSet.not_mem_empty

/-- **Only a model on its grid is given back.** -/
lemma eq_restored_of_load {loaded : Model} (ha : Lossless machine)
    (hw : isWritable machine.archives m time = true)
    (h : ∀ f ∈ versionFiles machine.archives m time, look f.name = .ok (.file f.content))
    (hl : load machine look = .ok loaded) : loaded = m.restored ∧ m.OnGrid := by
  have hgrid := onGrid_of_load hl
  rw [load_modelFiles_eq ha hw (checkVersion_versionFiles hw h)
    (List.forall_mem_append.1 h).1] at hl
  split at hl
  · cases hl
  · obtain rfl := Except.ok.inj hl
    exact ⟨rfl, hgrid⟩

end Cache

end SoundAtlas
