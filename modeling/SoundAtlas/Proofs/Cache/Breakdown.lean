import SoundAtlas.Proofs.Cache.Escape

/-!
What makes the loading of a version fail in a way that reading does not tolerate. Whatever is in the
files, it is one of three things: brackets nested too deeply, an infinity where a whole number is
read, or a file of the wrong kind, namely checksums that are no object or an archive in which there
is nothing to be read.
-/

namespace SoundAtlas.Cache

variable {machine : Machine} {look : Look} {entry : Json.Text × Json} {v : Json}

/-! ### Checksums -/

/-- There is a file of the size and the digest that an entry lists. -/
def Matches (look : Look) (entry : Json.Text × Json) : Prop :=
  ∃ bytes size digest, lookUp look entry.1 = .ok (.file bytes) ∧
    entry.2.member "size" = .ok size ∧ size.toInt = .ok (bytes.size : Int) ∧
    entry.2.member "sha256" = .ok digest ∧ digest.plain = .chars (Digest.text bytes)

/-- An entry lists an infinity as the size of something that is there. -/
def InfiniteSize (look : Look) (entry : Json.Text × Json) : Prop :=
  (∃ node, lookUp look entry.1 = .ok node) ∧
    ∃ size, entry.2.member "size" = .ok size ∧ IsInfinite size

/-- Checksums hold the names of all files that they must list. -/
def Lists (checksums : Json) : Prop :=
  ∀ name ∈ requiredFiles, holds name checksums = .ok true

/-- The files of a version are those that its checksums list. -/
def Intact (machine : Machine) (look : Look) : Prop :=
  ∃ ms, Reads machine (look checksumFile)
    (.obj ms) ∧ Lists (.obj ms) ∧ ∀ entry ∈ ms, Matches look entry

lemma present_eq_true {found : Except Disk.Error Node} :
    Disk.present found = .ok true ↔ ∃ node, found = .ok node := by
  unfold Disk.present
  split <;> simp

lemma size_eq_ok {bytes : ByteArray} {n : Nat} :
    Disk.size (.ok (.file bytes)) = .ok n ↔ bytes.size = n := by
  simp [Disk.size]

lemma checkEntry_eq_ok : checkEntry look entry = .ok () ↔ Matches look entry := by
  simp only [checkEntry, bind_eq_ok, check_eq_ok, last_check_eq_ok, mapError_eq_ok, shaped_eq_ok,
    content_eq_ok, not_not, ne_eq, and_true]
  constructor
  · rintro ⟨-, -, -, size, hs, n, hn, m, hm, rfl, digest, hd, bytes, hb, hdb⟩
    rw [hb, size_eq_ok] at hm
    exact ⟨bytes, size, digest, hb, hs, hm ▸ hn, hd, hdb.symm⟩
  · rintro ⟨bytes, size, digest, hb, hs, hn, hd, hdb⟩
    exact ⟨true, present_eq_true.2 ⟨_, hb⟩, by simp, size, hs, _, hn, _, hb ▸ size_eq_ok.2 rfl, rfl,
      digest, hd, bytes, hb, hdb.symm⟩

lemma escapes_checkEntry : Escapes (checkEntry look entry) ↔ InfiniteSize look entry := by
  simp only [checkEntry, escapes_bind, escapes_check, not_escapes_check, mapError_eq_ok,
    shaped_eq_ok, not_escapes_disk, false_or, not_shapeEscapes_member, and_false, exists_false,
    or_false]
  constructor
  · rintro ⟨b, hb, hnb, size, hs, hi⟩
    obtain rfl : b = true := by simpa using hnb
    exact ⟨present_eq_true.1 hb, size, hs, shapeEscapes_toInt.1 hi⟩
  · rintro ⟨hn, size, hs, hi⟩
    exact ⟨true, present_eq_true.2 hn, by simp, size, hs, shapeEscapes_toInt.2 hi⟩

lemma requireEntry_eq_ok {name : String} :
    requireEntry v name = .ok () ↔ holds name v = .ok true := by
  unfold requireEntry
  rw [bind_eq_ok]
  constructor
  · rintro ⟨b, hb, h⟩
    cases b with
    | false => cases h
    | true => exact shaped_eq_ok.1 hb
  · exact fun h => ⟨true, shaped_eq_ok.2 h, rfl⟩

lemma not_escapes_requireEntry (name : String) : ¬ Escapes (requireEntry v name) := by
  unfold requireEntry
  rw [escapes_bind, not_or]
  refine ⟨not_shapeEscapes_holds name v, ?_⟩
  rintro ⟨b, -, h⟩
  cases b with
  | false => exact not_escapes_invalid _ h
  | true => exact not_escapes_ok _ h

lemma requireAll_eq_ok : requiredFiles.forM (requireEntry v) = .ok () ↔ Lists v := by
  rw [forM_eq_ok]
  simp only [requireEntry_eq_ok, Lists]

lemma not_escapes_requireAll : ¬ Escapes (requiredFiles.forM (requireEntry v)) := by
  rw [escapes_forM]
  rintro ⟨before, name, after, -, -, h⟩
  exact not_escapes_requireEntry name h

lemma checkFiles_eq_ok : checkFiles look v = .ok () ↔
    Lists v ∧ ∃ ms, v = .obj ms ∧ ∀ entry ∈ ms, Matches look entry := by
  unfold checkFiles
  rw [bind_eq_ok]
  constructor
  · rintro ⟨⟨⟩, hl, h⟩
    refine ⟨requireAll_eq_ok.1 hl, ?_⟩
    cases v with
    | obj ms => exact ⟨ms, rfl, fun entry he => checkEntry_eq_ok.1 (forM_eq_ok.1 h entry he)⟩
    | _ => cases h
  · rintro ⟨hl, ms, rfl, hm⟩
    exact ⟨(), requireAll_eq_ok.2 hl, forM_eq_ok.2 fun entry he => checkEntry_eq_ok.2 (hm entry he)⟩

lemma escapes_checkEntries {ms : List (Json.Text × Json)} :
    Escapes (ms.forM (checkEntry look)) ↔ Reaches (Matches look) (InfiniteSize look) ms := by
  rw [escapes_forM]
  simp only [checkEntry_eq_ok, escapes_checkEntry]

/-- **Checksums** that are no object are not tolerated, even if they hold all names. -/
lemma escapes_checkFiles : Escapes (checkFiles look v) ↔
    Lists v ∧ ((∀ ms, v ≠ .obj ms) ∨
      ∃ ms, v = .obj ms ∧ Reaches (Matches look) (InfiniteSize look) ms) := by
  unfold checkFiles
  rw [escapes_bind, or_iff_right not_escapes_requireAll]
  constructor
  · rintro ⟨⟨⟩, hl, h⟩
    refine ⟨requireAll_eq_ok.1 hl, ?_⟩
    cases v with
    | obj ms => exact Or.inr ⟨ms, rfl, escapes_checkEntries.1 h⟩
    | _ => exact Or.inl (by simp)
  · rintro ⟨hl, h⟩
    refine ⟨(), requireAll_eq_ok.2 hl, ?_⟩
    rcases h with h | ⟨ms, rfl, h⟩
    · cases v with
      | obj ms => exact absurd rfl (h ms)
      | _ => exact ⟨_, rfl, rfl⟩
    · exact escapes_checkEntries.2 h

lemma checkVersion_eq_ok : checkVersion machine look = .ok () ↔ Intact machine look := by
  simp only [checkVersion, bind_eq_ok, check_eq_ok, mapError_eq_ok, readDocument_eq_ok,
    checkFiles_eq_ok]
  constructor
  · rintro ⟨-, -, -, v, hr, hl, ms, rfl, hm⟩
    exact ⟨ms, hr, hl, hm⟩
  · rintro ⟨ms, hr, hl, hm⟩
    obtain ⟨s, hs, -⟩ := id hr
    exact ⟨true, present_eq_true.2 ⟨_, hs⟩, by simp, _, hr, hl, ms, rfl, hm⟩

lemma escapes_checkVersion : Escapes (checkVersion machine look) ↔
    TooDeep machine (look checksumFile) ∨
      ∃ v, Reads machine (look checksumFile) v ∧ Escapes (checkFiles look v) := by
  simp only [checkVersion, escapes_bind, escapes_check, mapError_eq_ok, not_escapes_disk, false_or,
    escapes_readDocument, readDocument_eq_ok]
  constructor
  · rintro ⟨-, -, -, h⟩
    exact h
  · intro h
    obtain ⟨node, hn⟩ : ∃ node, look checksumFile = .ok node := by
      rcases h with ⟨s, hs, -⟩ | ⟨v, ⟨s, hs, -⟩, -⟩ <;> exact ⟨_, hs⟩
    exact ⟨true, present_eq_true.2 ⟨node, hn⟩, by simp, h⟩

/-! ### The manifest -/

def HasFields (ms : List (Json.Text × Json)) : Prop :=
  ∀ f ∈ manifestFields, ∃ v, (Json.obj ms).member f = .ok v

/-- A manifest has all fields and the schema version, and the first of its sizes that is no whole
number is an infinity. -/
def InfiniteExtent (v : Json) : Prop :=
  ∃ ms schema width height dimensions, v = .obj ms ∧ HasFields ms ∧
    v.member "schema_version" = .ok schema ∧ isSchemaVersion schema = true ∧
    v.member "width" = .ok width ∧ v.member "height" = .ok height ∧
    v.member "dimensions" = .ok dimensions ∧ FirstInfinite [width, height, dimensions]

lemma missingFields_eq_nil {names : List Json.Text} :
    missingFields names = [] ↔ ∀ f ∈ manifestFields, .chars f ∈ names := by
  unfold missingFields
  rw [← List.length_eq_zero_iff, List.length_mergeSort, List.length_eq_zero_iff,
    List.filter_eq_nil_iff]
  simp

lemma fieldNames_obj (ms : List (Json.Text × Json)) :
    fieldNames (.obj ms) = .ok (ms.map (·.1)) := by
  have hkeys : (ms.map fun m => Json.str m.1).all Json.isKey = true := by
    simp [Json.isKey]
  change (if (ms.map fun m => Json.str m.1).all Json.isKey = true then _ else _) = _
  rw [if_pos hkeys, List.filterMap_map]
  exact congrArg Except.ok
    (congrFun (List.filterMap_eq_map (f := fun m : Json.Text × Json => m.1)) ms)

lemma exists_member {ms : List (Json.Text × Json)} {f : String} :
    (∃ v, (Json.obj ms).member f = .ok v) ↔ .chars f ∈ ms.map (·.1) := by
  have hfind : (Json.find? (.chars f) ms).isSome = true ↔ .chars f ∈ ms.map (·.1) := by
    simp [Json.find?]
  rw [← hfind, Json.member]
  cases Json.find? (.chars f) ms <;> simp

lemma hasFields_iff {ms : List (Json.Text × Json)} :
    HasFields ms ↔ missingFields (ms.map (·.1)) = [] := by
  rw [missingFields_eq_nil]
  simp only [HasFields, exists_member]

lemma obj_of_member {f : String} {x : Json} (h : v.member f = .ok x) : ∃ ms, v = .obj ms := by
  cases v with
  | obj ms => exact ⟨ms, rfl⟩
  | _ => cases h

lemma escapes_readManifest : Escapes (readManifest v) ↔ InfiniteExtent v := by
  simp only [readManifest, escapes_bind, escapes_check, shaped_eq_ok, not_shapeEscapes_fieldNames,
    not_shapeEscapes_member, false_or, shapeEscapes_toInt, pure, Except.pure, not_escapes_ok,
    and_false, exists_false, or_false]
  constructor
  · rintro ⟨names, hnames, hmissing, schema, hs, hschema, width, hw, h⟩
    obtain ⟨ms, rfl⟩ := obj_of_member hs
    rw [fieldNames_obj] at hnames
    cases hnames
    have hfields : HasFields ms := hasFields_iff.2 (not_not.1 hmissing)
    obtain ⟨height, hh⟩ := hfields "height" (by decide)
    obtain ⟨dimensions, hd⟩ := hfields "dimensions" (by decide)
    refine ⟨ms, schema, width, height, dimensions, rfl, hfields, hs, by simpa using hschema, hw, hh,
      hd, ?_⟩
    simp only [firstInfinite_cons, not_firstInfinite_nil, and_false, or_false]
    simp only [hh, hd, Except.ok.injEq, exists_eq_left', exists_and_right] at h
    exact h
  · rintro ⟨ms, schema, width, height, dimensions, rfl, hf, hs, hv, hw, hh, hd, h⟩
    refine ⟨_, fieldNames_obj ms, not_not.2 (hasFields_iff.1 hf), schema, hs, by simp [hv], width,
      hw, ?_⟩
    simp only [firstInfinite_cons, not_firstInfinite_nil, and_false, or_false] at h
    simp only [hh, hd, Except.ok.injEq, exists_eq_left', exists_and_right]
    exact h

/-! ### The arrays -/

lemma get_ne_empty (a : Archive) (name : String) : a.get name ≠ .error .empty := by
  unfold Archive.get
  split <;> simp

/-- **An archive** is not tolerated if its bytes end before anything has been read. -/
lemma escapes_readArrays {archives : Archive.Format} {found : Except Disk.Error Node} :
    Escapes (readArrays archives found) ↔
      ∃ bytes : ByteArray, found = .ok (.file bytes) ∧ archives.read bytes = .error .empty := by
  simp only [readArrays, escapes_bind, not_escapes_disk, escapes_archive, mapError_eq_ok,
    content_eq_ok, get_ne_empty, false_or, pure, Except.pure, not_escapes_ok,
    and_false, exists_false, or_false]

lemma not_escapes_checkArrays (sizes : Sizes) (references weights : Tensor UInt64) :
    ¬ Escapes (checkArrays sizes references weights) := by
  unfold checkArrays
  dsimp only
  by_cases hr : shapeOf references ≠ [sizes.width * sizes.height, sizes.dimensions]
  · rw [if_pos hr]
    split
    · exact not_escapes_invalid (α := Unit) _
    · change ¬ Escapes (.error .unprintable : Except LoadError Unit)
      rw [escapes_error]
      simp [ModelCache.isTolerated]
  · rw [if_neg hr]
    exact not_escapes_check

/-! ### The positions -/

/-- The first coordinate of a position that is no whole number is an infinity. -/
def InfinitePosition (v : Json) : Prop :=
  ∃ x y, v.pair = .ok (x, y) ∧ FirstInfinite [x, y]

def InfinitePositions (v : Json) : Prop :=
  ∃ ps, v.elements = .ok ps ∧
    Reaches (fun p => ∃ q, Model.readPosition p = .ok q) InfinitePosition ps

/-- A row has positions of which the first that cannot be read has an infinity, or else an infinity
as its track. -/
def InfiniteRow (v : Json) : Prop :=
  ∃ ps, v.member "positions" = .ok ps ∧ (InfinitePositions ps ∨
    (∃ set, Model.readPositions ps = .ok set) ∧
      ∃ track, v.member "track_id" = .ok track ∧ IsInfinite track)

/-- The first row that cannot be read has an infinity. -/
def InfiniteRows (v : Json) : Prop :=
  ∃ rows, v.elements = .ok rows ∧
    Reaches (fun row => ∃ read, readTrackRow row = .ok read) InfiniteRow rows

lemma shapeEscapes_readPosition : ShapeEscapes (Model.readPosition v) ↔ InfinitePosition v := by
  simp only [Model.readPosition, shapeEscapes_bind, not_shapeEscapes_pair, shapeEscapes_toInt,
    pure, Except.pure, not_shapeEscapes_ok, InfinitePosition, firstInfinite_cons,
    not_firstInfinite_nil, Prod.exists, false_or, and_false, exists_false, or_false,
    exists_and_right]

lemma shapeEscapes_readPositions : ShapeEscapes (Model.readPositions v) ↔ InfinitePositions v := by
  simp only [Model.readPositions, shapeEscapes_bind, not_shapeEscapes_elements, shapeEscapes_mapM,
    shapeEscapes_readPosition, pure, Except.pure, not_shapeEscapes_ok, InfinitePositions,
    false_or, and_false, exists_false, or_false]

lemma shapeEscapes_readTrackRow : ShapeEscapes (readTrackRow v) ↔ InfiniteRow v := by
  simp only [readTrackRow, shapeEscapes_bind, not_shapeEscapes_member, shapeEscapes_readPositions,
    shapeEscapes_toInt, pure, Except.pure, not_shapeEscapes_ok, InfiniteRow, false_or, and_false,
    exists_false, or_false, exists_and_right]

/-- **The rows of the tracks** are not tolerated if the first that cannot be read has an
infinity. -/
lemma shapeEscapes_readTrackRows : ShapeEscapes (readTrackRows v) ↔ InfiniteRows v := by
  simp only [readTrackRows, shapeEscapes_bind, not_shapeEscapes_elements, shapeEscapes_mapM,
    shapeEscapes_readTrackRow, InfiniteRows, false_or]

/-! ### The whole version -/

/-- The files are those of the checksums, and the manifest gives sizes. -/
def Sized (machine : Machine) (look : Look) (sizes : Sizes) : Prop :=
  Intact machine look ∧ ∃ v, Reads machine (look manifestFile) v ∧ readManifest v = .ok sizes

/-- Moreover the archive has arrays of these sizes. -/
def Fitting (machine : Machine) (look : Look) : Prop :=
  ∃ sizes references weights, Sized machine look sizes ∧
    readArrays machine.archives (look networkFile) = .ok (references, weights) ∧
    checkArrays sizes references weights = .ok ()

inductive Breakdown (machine : Machine) (look : Look) : Prop where
  | deepChecksums (h : TooDeep machine (look checksumFile))
  | noObject (v : Json) (h : Reads machine (look checksumFile) v) (hl : Lists v)
      (hv : ∀ ms, v ≠ .obj ms)
  | infiniteSize (ms : List (Json.Text × Json)) (h : Reads machine (look checksumFile) (.obj ms))
      (hl : Lists (.obj ms)) (hm : Reaches (Matches look) (InfiniteSize look) ms)
  | deepManifest (hi : Intact machine look) (h : TooDeep machine (look manifestFile))
  | infiniteExtent (v : Json) (hi : Intact machine look) (h : Reads machine (look manifestFile) v)
      (hv : InfiniteExtent v)
  | emptyArchive (sizes : Sizes) (bytes : ByteArray) (hs : Sized machine look sizes)
      (h : look networkFile = .ok (.file bytes)) (hb : machine.archives.read bytes = .error .empty)
  | deepPositions (hf : Fitting machine look) (h : TooDeep machine (look positionsFile))
  | infiniteRows (v : Json) (hf : Fitting machine look) (h : Reads machine (look positionsFile) v)
      (hv : InfiniteRows v)

lemma not_escapes_model (sizes : Sizes) (references weights : Tensor UInt64)
    (rows : List (Int × PositionSet)) :
    ¬ Escapes (match firstOutside sizes (rows.map (·.1)) (positionsOfRows rows) with
      | some (track, p) => throw (.invalid (.outside track p sizes.width sizes.height))
      | none => (do
        let network ← (Network.ofArrays sizes.width sizes.height (.ok references)
          (.ok weights)).mapError LoadError.network
        (Model.make network (positionsOfRows rows)).mapError .model :
          Except LoadError Model)) := by
  split
  · exact not_escapes_invalid _
  · rw [escapes_bind, not_or]
    refine ⟨not_escapes_mapError (fun _ => rfl) _, ?_⟩
    rintro ⟨network, -, h⟩
    exact not_escapes_mapError (fun _ => rfl) _ h

/-- **The failures that are not tolerated**, and no others, are those of a version with one of these
defects. -/
lemma escapes_load : Escapes (load machine look) ↔ Breakdown machine look := by
  simp only [load, escapes_bind, escapes_checkVersion, escapes_checkFiles, escapes_readDocument,
    readDocument_eq_ok, escapes_readManifest, escapes_readArrays, not_escapes_checkArrays,
    shapeEscapes_readTrackRows, Prod.exists, false_or]
  constructor
  · rintro ((h | ⟨v, h, hl, hv | ⟨ms, rfl, hm⟩⟩) | ⟨⟨⟩, hi, h⟩)
    · exact .deepChecksums h
    · exact .noObject v h hl hv
    · exact .infiniteSize ms h hl hm
    rw [checkVersion_eq_ok] at hi
    rcases h with h | ⟨v, hv, h | ⟨sizes, hs, h⟩⟩
    · exact .deepManifest hi h
    · exact .infiniteExtent v hi hv h
    rcases h with ⟨bytes, hb, hnil⟩ | ⟨references, weights, ha, ⟨⟩, hc, h⟩
    · exact .emptyArchive sizes bytes ⟨hi, v, hv, hs⟩ hb hnil
    have hf : Fitting machine look := ⟨sizes, references, weights, ⟨hi, v, hv, hs⟩, ha, hc⟩
    rcases h with h | ⟨v, hv, h | ⟨rows, -, h⟩⟩
    · exact .deepPositions hf h
    · exact .infiniteRows v hf hv h
    · exact absurd h (not_escapes_model sizes references weights rows)
  · rintro (h | ⟨v, h, hl, hv⟩ | ⟨ms, h, hl, hm⟩ | ⟨hi, h⟩ | ⟨v, hi, h, hv⟩ |
      ⟨sizes, bytes, ⟨hi, v, hv, hs⟩, h, hb⟩ |
      ⟨⟨sizes, references, weights, ⟨hi, v, hv, hs⟩, ha, hc⟩, h⟩ |
      ⟨v', ⟨sizes, references, weights, ⟨hi, v, hv, hs⟩, ha, hc⟩, h, hv'⟩)
    · exact Or.inl (Or.inl h)
    · exact Or.inl (Or.inr ⟨v, h, hl, Or.inl hv⟩)
    · exact Or.inl (Or.inr ⟨_, h, hl, Or.inr ⟨ms, rfl, hm⟩⟩)
    all_goals refine Or.inr ⟨(), checkVersion_eq_ok.2 hi, ?_⟩
    · exact Or.inl h
    · exact Or.inr ⟨v, h, Or.inl hv⟩
    all_goals refine Or.inr ⟨v, hv, Or.inr ⟨sizes, hs, ?_⟩⟩
    · exact Or.inl ⟨bytes, h, hb⟩
    all_goals refine Or.inr ⟨references, weights, ha, (), hc, ?_⟩
    · exact Or.inl h
    · exact Or.inr ⟨v', h, Or.inl hv'⟩

end SoundAtlas.Cache
