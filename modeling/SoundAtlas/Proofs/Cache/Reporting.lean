import SoundAtlas.Proofs.Cache.Reading
import SoundAtlas.Proofs.Storage.Folder

/-!
When a cache can be told about. What is told is taken from the manifest of the current version as it
stands, without the checks that loading makes. A manifest that cannot be read is meant to be warned
of; it is, if it is a folder or no document at all, and other defects make the request fail.
-/

namespace SoundAtlas.ModelCache

open Cache

variable {machine : Machine} {c : ModelCache} {d : Disk} {name : String}
  {found : Except Disk.Error Node}

/-! ### The manifest -/

/-- What is found in place of a manifest is a folder, or a text that is no document. -/
def Garbled (machine : Machine) (found : Except Disk.Error Node) : Prop :=
  (∃ entries, found = .ok (.folder entries)) ∨
    ∃ s : String, found = .ok (.file s.toUTF8) ∧ Json.parse machine.readDepth s = .error .malformed

/-- What is found in place of a manifest is no text, or a text that is no document for its long
numbers or deep brackets, or a document that is no object. -/
inductive Misfit (machine : Machine) (found : Except Disk.Error Node) : Prop where
  | noText (bytes : ByteArray) (h : found = .ok (.file bytes)) (hs : ∀ s : String, bytes ≠ s.toUTF8)
  | longNumber (s : String) (h : found = .ok (.file s.toUTF8))
      (hs : Json.parse machine.readDepth s = .error .integerTooLong)
  | deep (h : TooDeep machine found)
  | noObject (v : Json) (h : Reads machine found v) (hv : ∀ ms, v ≠ .obj ms)

/-- **A manifest that is there** is one of three things. -/
lemma found_cases {node : Node} (h : found = .ok node) :
    (∃ ms, Reads machine found (.obj ms)) ∨ Garbled machine found ∨ Misfit machine found := by
  subst h
  cases node with
  | folder entries => exact Or.inr (Or.inl (Or.inl ⟨entries, rfl⟩))
  | file bytes =>
    by_cases htext : ∃ s : String, bytes = s.toUTF8
    · obtain ⟨s, rfl⟩ := htext
      rcases hparse : Json.parse machine.readDepth s with e | v
      · cases e with
        | malformed => exact Or.inr (Or.inl (Or.inr ⟨s, rfl, hparse⟩))
        | integerTooLong => exact Or.inr (Or.inr (.longNumber s rfl hparse))
        | tooDeep => exact Or.inr (Or.inr (.deep ⟨s, rfl, hparse⟩))
      · by_cases hobject : ∃ ms, v = .obj ms
        · obtain ⟨ms, rfl⟩ := hobject
          exact Or.inl ⟨ms, s, rfl, hparse⟩
        · exact Or.inr (Or.inr (.noObject v ⟨s, rfl, hparse⟩ (not_exists.1 hobject)))
    · exact Or.inr (Or.inr (.noText bytes rfl (not_exists.1 htext)))

/-! ### The folder of the version -/

lemma ofString_of_isVersionName (h : isVersionName name = true) :
    Path.ofString name = ⟨"", [name]⟩ := by
  rw [isVersionName, Bool.and_eq_true, Bool.not_eq_true', List.isPrefixOf_iff_prefix] at h
  obtain ⟨⟨rest, hrest⟩, hslash⟩ := h
  refine Path.ofString_of_not_mem ?_ ?_ ?_
  · simpa using hslash
  · rintro rfl
    simp [versionStart] at hrest
  · rintro rfl
    simp [versionStart] at hrest

lemma exists_list_version {node : Node} (hv : isVersionName name = true)
    (h : c.look d name manifestFile = .ok node) :
      ∃ entries, d.list (c.version name) = .ok entries := by
  refine Disk.exists_list_of_node_child ?_ (by decide) h
  rw [version, Path.child, ofString_of_isVersionName hv]
  exact List.append_ne_nil_of_right_ne_nil _ (List.cons_ne_nil _ _)

/-! ### What is told -/

def header (c : ModelCache) (isThere : Bool) : List (String × Json) :=
  [("cache_dir", .string c.folder.text), ("exists", .bool isThere)]

def toldKeys : List String :=
  ["width", "height", "dimensions", "track_count", "created_at_utc"]

/-- What is told of a version with a manifest, in a folder with the given entries. -/
def versionMembers (name : String) (ms : List (Json.Text × Json)) (entries : List (String × Node)) :
    List (String × Json) :=
  ("version", .string name) ::
    (toldKeys.map fun key => (key, (Json.find? (.chars key) ms).getD .null)) ++
    [("size_kb", .float (Number.ofDecimal false
      (Number.roundQuotient (bytesOf entries * 100) 1024) (-2)))]

/-- What is told about a cache agrees with whether it is there, and with the manifest of the current
version; a manifest that cannot be read is warned of, and nothing else is. -/
inductive Reports (c : ModelCache) (d : Disk) (i : Info) : Prop where
  | missing (h : c.exists? d = (.ok false, (c.info d).2))
      (hi : i.document = .object (c.header false))
  | told (name : String) (ms : List (Json.Text × Json)) (entries : List (String × Node))
      (hp : Points c d name) (hm : Reads c.machine (c.look d name manifestFile) (.obj ms))
      (hl : d.list (c.version name) = .ok entries) (h : c.exists? d = (.ok true, []))
      (hi : i.document = .object (c.header true ++ versionMembers name ms entries))
      (hw : (c.info d).2 = [])
  | warned (name : String) (hp : Points c d name)
      (hm : Garbled c.machine (c.look d name manifestFile))
      (h : c.exists? d = (.ok true, [])) (hi : i.document = .object (c.header true))
      (hw : (c.info d).2 = [.noManifest])

/-- What keeps a cache from being told about. -/
inductive Unreportable (c : ModelCache) (d : Disk) : Prop where
  | pointer (h : Illegible c d)
  | longName (name : String) (h : Points c d name)
      (hm : c.look d name manifestFile = .error .nameTooLong)
  | manifest (name : String) (h : Points c d name)
      (hm : Misfit c.machine (c.look d name manifestFile))

/-- The details of a version that has a manifest: its fields, or the failure that its defect
causes. -/
lemma details_cases {entries : List (String × Node)} (hl : d.list (c.version name) = .ok entries) :
    (∀ ms, Reads c.machine (c.look d name manifestFile) (.obj ms) →
      ∃ x, c.details d name = .ok x ∧ x.members = versionMembers name ms entries) ∧
    (Garbled c.machine (c.look d name manifestFile) →
      ∃ e, c.details d name = .error e ∧ isWarned e = true) ∧
    (Misfit c.machine (c.look d name manifestFile) →
      ∃ e, c.details d name = .error e ∧ isWarned e = false) := by
  have hfailed {e : LoadError}
    (h : readDocument c.machine (c.look d name manifestFile) = .error e) :
      c.details d name = .error e := by
    rw [details, h]
    rfl
  have hparsed {s : String} {e : Json.SyntaxError}
      (hs : c.look d name manifestFile = .ok (.file s.toUTF8))
      (he : Json.parse c.machine.readDepth s = .error e) :
      c.details d name = .error (.syntaxError e) := by
    refine hfailed ?_
    rw [hs, readDocument_file, he]
    rfl
  refine ⟨fun ms hm => ?_, fun hm => ?_, fun hm => ?_⟩
  · rw [details, readDocument_eq_ok.2 hm, hl]
    exact ⟨_, rfl, rfl⟩
  · rcases hm with ⟨inside, hm⟩ | ⟨s, hs, he⟩
    · refine ⟨.disk .isFolder, hfailed ?_, rfl⟩
      rw [hm]
      rfl
    · exact ⟨_, hparsed hs he, rfl⟩
  · rcases hm with ⟨bytes, hm, hs⟩ | ⟨s, hs, he⟩ | ⟨s, hs, he⟩ | ⟨v, hm, hv⟩
    · refine ⟨.undecodable, hfailed ?_, rfl⟩
      rw [hm]
      simp only [readDocument, Disk.content, fromUTF8?_eq_none.2 hs]
    · exact ⟨_, hparsed hs he, rfl⟩
    · exact ⟨_, hparsed hs he, rfl⟩
    · refine ⟨.shape .notObject, ?_, rfl⟩
      rw [details, readDocument_eq_ok.2 hm]
      cases v with
      | obj ms => exact absurd rfl (hv ms)
      | _ => rfl

/-- Telling about a version fails for its manifest exactly if that is a misfit. -/
lemma details_fails_iff {node : Node} (hp : Points c d name)
    (hn : c.look d name manifestFile = .ok node) :
    (∃ e, c.details d name = .error e ∧ isWarned e = false) ↔
      Misfit c.machine (c.look d name manifestFile) := by
  obtain ⟨-, -, -, hv⟩ := id hp
  obtain ⟨entries, hl⟩ := exists_list_version hv hn
  obtain ⟨hobject, hgarbled, hmisfit⟩ := details_cases hl
  refine ⟨fun ⟨e, he, hfails⟩ => ?_, hmisfit⟩
  rcases found_cases hn with ⟨ms, hm⟩ | hm | hm
  · obtain ⟨x, hx, -⟩ := hobject ms hm
    rw [hx] at he
    cases he
  · obtain ⟨e', he', hwarned⟩ := hgarbled hm
    obtain rfl : e' = e := Except.error.inj (he'.symm.trans he)
    rw [hwarned] at hfails
    cases hfails
  · exact hm

lemma Misfit.exists_node (h : Misfit machine found) : ∃ node, found = .ok node := by
  rcases h with ⟨bytes, h, -⟩ | ⟨s, h, -⟩ | ⟨s, h, -⟩ | ⟨v, ⟨s, h, -⟩, -⟩
  all_goals exact ⟨_, h⟩

/-- **Telling about a cache fails** only with one of these defects, and with each of them. -/
lemma info_eq_error : (∃ e, (c.info d).1 = .error e) ↔ Unreportable c d := by
  have hinfo : (∃ e, (c.info d).1 = .error e) ↔ (∃ e, (c.usable d).1 = .error e) ∨
      ∃ name, (c.usable d).1 = .ok (some name) ∧
        ∃ e, c.details d name = .error e ∧ isWarned e = false := by
    unfold info
    rcases c.usable d with ⟨e | _ | name, ws⟩
    · simp
    · simp
    · simp only [reduceCtorEq, exists_false, Except.ok.injEq, Option.some.injEq, exists_eq_left',
        false_or]
      split
      · rename_i x hx
        simp [hx]
      · rename_i e he
        rw [he]
        split <;> simp_all
  rw [hinfo, usable_eq_error]
  simp only [usable_eq_some]
  constructor
  · rintro ((h | ⟨name, h, hm⟩) | ⟨name, ⟨h, node, hn⟩, hfails⟩)
    · exact .pointer h
    · exact .longName name h hm
    · exact .manifest name h ((details_fails_iff h hn).1 hfails)
  · rintro (h | ⟨name, h, hm⟩ | ⟨name, h, hm⟩)
    · exact Or.inl (Or.inl h)
    · exact Or.inl (Or.inr ⟨name, h, hm⟩)
    · obtain ⟨node, hn⟩ := hm.exists_node
      exact Or.inr ⟨name, ⟨h, node, hn⟩, (details_fails_iff h hn).2 hm⟩

lemma usable_of_found {node : Node} (hp : Points c d name)
    (hn : c.look d name manifestFile = .ok node) : c.usable d = (.ok (some name), []) := by
  obtain ⟨bytes, s, hb, hs, hname, hv⟩ := points_iff.1 hp
  have hcurrent : c.current d = (.ok (some name), []) := by
    unfold current
    rw [hb]
    dsimp only
    rw [hs]
    dsimp only
    rw [hname, if_pos hv]
  unfold usable
  rw [hcurrent]
  dsimp only
  rw [hasManifest_eq_true.2 ⟨node, hn⟩]

/-- **What is told about a cache is right**, and is all that there is to tell. -/
lemma reports_of_info {i : Info} (h : (c.info d).1 = .ok i) : Reports c d i := by
  rcases hu : c.usable d with ⟨e | _ | name, ws⟩
  · rw [info, hu] at h
    cases h
  · have hinfo : c.info d = (.ok ⟨c.folder.text, false, none⟩, ws) := by
      rw [info, hu]
    rw [hinfo] at h
    obtain rfl := Except.ok.inj h
    refine .missing ?_ rfl
    rw [exists?, hu, hinfo]
    rfl
  · have husable : (c.usable d).1 = .ok (some name) := by rw [hu]
    obtain ⟨hp, node, hn⟩ := usable_eq_some.1 husable
    have hthere : c.exists? d = (.ok true, []) := by
      rw [exists?, usable_of_found hp hn]
      rfl
    obtain ⟨-, -, -, hv⟩ := id hp
    obtain ⟨entries, hl⟩ := exists_list_version hv hn
    obtain ⟨hobject, hgarbled, -⟩ := details_cases hl
    rcases found_cases hn with ⟨ms, hm⟩ | hm | hm
    · obtain ⟨x, hx, hmembers⟩ := hobject ms hm
      have hinfo : c.info d = (.ok ⟨c.folder.text, true, some x⟩, []) := by
        rw [info, usable_of_found hp hn]
        dsimp only
        rw [hx]
      rw [hinfo] at h
      obtain rfl := Except.ok.inj h
      refine .told name ms entries hp hm hl hthere ?_ (by rw [hinfo])
      rw [← hmembers]
      rfl
    · obtain ⟨e, he, hwarned⟩ := hgarbled hm
      have hinfo : c.info d = (.ok ⟨c.folder.text, true, none⟩, [.noManifest]) := by
        rw [info, usable_of_found hp hn]
        dsimp only
        rw [he]
        exact if_pos hwarned
      rw [hinfo] at h
      obtain rfl := Except.ok.inj h
      exact .warned name hp hm hthere rfl (by rw [hinfo])
    · obtain ⟨e, he⟩ := info_eq_error.2 (.manifest name hp hm)
      rw [he] at h
      cases h

/-- **A cache is told about unless it has one of these defects.** What is told then agrees with
whether the cache is there, and is the header alone for no version, all fields of the manifest, or
the header and a warning for a manifest that cannot be read. -/
theorem info_succeeds_iff (c : ModelCache) (d : Disk) :
    ((∃ i, (c.info d).1 = .ok i) ↔ ¬ Unreportable c d) ∧
      ∀ i, (c.info d).1 = .ok i → Reports c d i := by
  refine ⟨?_, fun i => reports_of_info⟩
  rw [← info_eq_error]
  rcases (c.info d).1 with e | i
  · simp
  · simp

/-! ### A list for a manifest -/

/-- A cache folder with one version, whose manifest is an empty array. -/
def arrayDisk : Disk where
  root := .folder [("cache", .folder [(pointerFile, .file "model-0".toUTF8),
    ("model-0", .folder [(manifestFile, .file "[]".toUTF8)])])]
  here := []

lemma points_arrayDisk : Points plainCache arrayDisk "model-0" := by
  have hpath : plainCache.pointer = ⟨"", ["cache", "CURRENT"]⟩ := by decide
  refine ⟨"model-0", ?_, by decide, by decide⟩
  rw [hpath, Disk.node_eq_ok]
  exact ⟨["cache", "CURRENT"], by rfl, rfl⟩

lemma manifest_arrayDisk :
    Reads plainCache.machine (plainCache.look arrayDisk "model-0" manifestFile) (.arr []) := by
  have hpath : (plainCache.version "model-0").child manifestFile =
      ⟨"", ["cache", "model-0", "manifest.json"]⟩ := by decide
  refine ⟨"[]", ?_, by cbv⟩
  rw [look, hpath, Disk.node_eq_ok]
  exact ⟨["cache", "model-0", "manifest.json"], by rfl, rfl⟩

/-- **An array for a manifest makes telling about the cache fail**, though the cache is there. -/
theorem info_arrayDisk : (plainCache.exists? arrayDisk).1 = .ok true ∧
    ¬ ∃ i, (plainCache.info arrayDisk).1 = .ok i := by
  have hthere : (plainCache.usable arrayDisk).1 = .ok (some "model-0") := by
    obtain ⟨s, hs, -⟩ := manifest_arrayDisk
    exact usable_eq_some.2 ⟨points_arrayDisk, _, hs⟩
  constructor
  · rw [exists?, hthere]
    rfl
  · have hmisfit : Misfit plainCache.machine (plainCache.look arrayDisk "model-0" manifestFile) :=
      .noObject _ manifest_arrayDisk (by simp)
    obtain ⟨e, he⟩ := info_eq_error.2 (.manifest _ points_arrayDisk hmisfit)
    rw [he]
    simp

end SoundAtlas.ModelCache
