import Mathlib
import SoundAtlas.Engine.Loading
import SoundAtlas.Proofs.Cache.Breakdown

/-!
When a cache can be read. A cache that is missing or damaged is meant to count as none, so that a
model is trained instead; it does so but for a few defects, which are listed here, and with one of
these loading fails.
-/

namespace SoundAtlas.ModelCache

open Cache

variable {c : ModelCache} {d : Disk} {name : String}

/-! ### The current version -/

def Points (c : ModelCache) (d : Disk) (name : String) : Prop :=
  ∃ s : String, d.node c.pointer = .ok (.file s.toUTF8) ∧ pointerName s = name ∧
    isVersionName name = true

lemma walk_ne_badName (place names : List String) : d.walk place names ≠ .error .badName := by
  induction names generalizing place with
  | nil => simp [Disk.walk]
  | cons name names ih =>
    unfold Disk.walk
    split
    · simp
    · simp
    · split
      · exact ih _
      · split
        · simp
        · exact ih _

/-- A path is refused for its characters only if one of them is zero. -/
lemma place_eq_badName {p : Path} : d.place p = .error .badName ↔ '\x00' ∈ p.text.toList := by
  unfold Disk.place
  split
  · rename_i h
    simpa using h
  · rename_i h
    refine iff_of_false ?_ (by simpa using h)
    split
    · simp
    · exact walk_ne_badName _ _

lemma node_eq_badName {p : Path} : d.node p = .error .badName ↔ '\x00' ∈ p.text.toList := by
  rw [← place_eq_badName (d := d), Disk.node]
  cases d.place p with
  | error e => simp [bind, Except.bind]
  | ok place =>
    simp only [bind, Except.bind, reduceCtorEq, iff_false]
    split <;> simp [pure, Except.pure, throw, throwThe, MonadExceptOf.throw]

lemma read_eq_ok {p : Path} {bytes : ByteArray} :
    d.read p = .ok bytes ↔ d.node p = .ok (.file bytes) :=
  content_eq_ok

lemma read_eq_badName {p : Path} : d.read p = .error .badName ↔ '\x00' ∈ p.text.toList := by
  rw [← node_eq_badName (d := d)]
  unfold Disk.read Disk.content
  split <;> simp_all

lemma fromUTF8?_eq_none {bytes : ByteArray} :
    String.fromUTF8? bytes = none ↔ ∀ s : String, bytes ≠ s.toUTF8 := by
  rw [Option.eq_none_iff_forall_ne_some]
  simp only [ne_eq, fromUTF8?_eq_some]

/-- The pointer cannot be named, or is a file that is no text. -/
def Illegible (c : ModelCache) (d : Disk) : Prop :=
  '\x00' ∈ c.pointer.text.toList ∨
    ∃ bytes, d.node c.pointer = .ok (.file bytes) ∧ ∀ s : String, bytes ≠ s.toUTF8

lemma current_eq_error : (∃ e, (c.current d).1 = .error e) ↔ Illegible c d := by
  rw [Illegible, ← read_eq_badName (d := d)]
  simp only [← read_eq_ok, ← fromUTF8?_eq_none]
  unfold current
  rcases d.read c.pointer with e | bytes
  · cases e <;> simp
  · rcases hs : String.fromUTF8? bytes with _ | s
    · simp [hs]
    · simp only [hs, reduceCtorEq, Except.ok.injEq, exists_eq_left', or_self, iff_false]
      split <;> simp

lemma points_iff : Points c d name ↔ ∃ bytes s, d.read c.pointer = .ok bytes ∧
    String.fromUTF8? bytes = some s ∧ pointerName s = name ∧ isVersionName name = true := by
  simp only [read_eq_ok, fromUTF8?_eq_some]
  constructor
  · rintro ⟨s, hs, h⟩
    exact ⟨_, s, hs, rfl, h⟩
  · rintro ⟨bytes, s, hs, rfl, h⟩
    exact ⟨s, hs, h⟩

lemma current_eq_some : (c.current d).1 = .ok (some name) ↔ Points c d name := by
  rw [points_iff]
  unfold current
  rcases d.read c.pointer with e | bytes
  · cases e <;> simp
  · rcases hs : String.fromUTF8? bytes with _ | s
    · simp [hs]
    · simp only [hs, Except.ok.injEq, Option.some.injEq, exists_eq_left', exists_and_left]
      split
      · rename_i hv
        simp only [Except.ok.injEq, Option.some.injEq, iff_self_and]
        rintro rfl
        exact hv
      · rename_i hv
        simp only [Except.ok.injEq, reduceCtorEq, false_iff, not_and]
        rintro rfl
        exact hv

/-! ### The version that is read -/

lemma hasManifest_eq_error : (∃ e, c.hasManifest d name = .error e) ↔
    c.look d name manifestFile = .error .nameTooLong := by
  unfold hasManifest Disk.present
  split <;> simp_all [Except.mapError]

lemma hasManifest_eq_true : c.hasManifest d name = .ok true ↔
    ∃ node, c.look d name manifestFile = .ok node := by
  unfold hasManifest Disk.present
  split <;> simp_all [Except.mapError]

lemma usable_eq_error : (∃ e, (c.usable d).1 = .error e) ↔ Illegible c d ∨
    ∃ name, Points c d name ∧ c.look d name manifestFile = .error .nameTooLong := by
  simp only [← current_eq_error, ← current_eq_some, ← hasManifest_eq_error]
  unfold usable
  rcases c.current d with ⟨e | _ | name, ws⟩
  · simp
  · simp
  · simp only [reduceCtorEq, exists_false, Except.ok.injEq, Option.some.injEq, exists_eq_left',
      false_or]
    split <;> simp_all

lemma usable_eq_some : (c.usable d).1 = .ok (some name) ↔ Points c d name ∧
    ∃ node, c.look d name manifestFile = .ok node := by
  simp only [← current_eq_some, ← hasManifest_eq_true]
  unfold usable
  rcases c.current d with ⟨e | _ | other, ws⟩
  · simp
  · simp
  · simp only [Except.ok.injEq, Option.some.injEq]
    split
    · rename_i e he
      simp only [reduceCtorEq, false_iff, not_and]
      rintro rfl
      simp [he]
    · rename_i he
      simp only [Except.ok.injEq, Option.some.injEq, iff_self_and]
      rintro rfl
      exact he
    · rename_i he
      simp only [Except.ok.injEq, reduceCtorEq, false_iff, not_and]
      rintro rfl
      simp [he]

/-- **A model is read** from the version that the pointer names. -/
lemma read_eq_some {m : Model} : (c.read d).1 = .ok (some m) ↔
    ∃ name, Points c d name ∧ (∃ node, c.look d name manifestFile = .ok node) ∧
      load c.machine (c.look d name) = .ok m := by
  have husable (name : String) : (c.usable d).1 = .ok (some name) ↔ Points c d name ∧
      ∃ node, c.look d name manifestFile = .ok node := usable_eq_some
  simp only [← and_assoc, ← husable]
  unfold read
  rcases c.usable d with ⟨e | _ | name, ws⟩
  · simp
  · simp
  · simp only [Except.ok.injEq, Option.some.injEq, exists_eq_left']
    split
    · rename_i m' hm'
      simp [hm']
    · rename_i e he
      rw [he]
      split <;> simp

/-- What keeps a cache from being read, or from being found missing. -/
inductive Unreadable (c : ModelCache) (d : Disk) : Prop where
  | pointer (h : Illegible c d)
  | longName (name : String) (h : Points c d name)
      (hm : c.look d name manifestFile = .error .nameTooLong)
  | version (name : String) (h : Points c d name)
      (hm : ∃ node, c.look d name manifestFile = .ok node)
      (hb : Breakdown c.machine (c.look d name))

/-- **Reading fails** only with one of these defects, and with each of them. -/
lemma read_eq_error : (∃ e, (c.read d).1 = .error e) ↔ Unreadable c d := by
  have hload : (∃ e, (c.read d).1 = .error e) ↔ (∃ e, (c.usable d).1 = .error e) ∨
      ∃ name, (c.usable d).1 = .ok (some name) ∧ Escapes (load c.machine (c.look d name)) := by
    unfold read
    rcases c.usable d with ⟨e | _ | name, ws⟩
    · simp
    · simp
    · simp only [reduceCtorEq, exists_false, Except.ok.injEq, Option.some.injEq, exists_eq_left',
        false_or]
      split
      · rename_i hm
        simp [hm, not_escapes_ok]
      · rename_i e he
        rw [he, escapes_error]
        split <;> simp_all
  rw [hload, usable_eq_error]
  simp only [usable_eq_some, escapes_load]
  constructor
  · rintro ((h | ⟨name, h, hm⟩) | ⟨name, ⟨h, hm⟩, hb⟩)
    · exact .pointer h
    · exact .longName name h hm
    · exact .version name h hm hb
  · rintro (h | ⟨name, h, hm⟩ | ⟨name, h, hm, hb⟩)
    · exact Or.inl (Or.inl h)
    · exact Or.inl (Or.inr ⟨name, h, hm⟩)
    · exact Or.inr ⟨name, ⟨h, hm⟩, hb⟩

/-- **A cache counts as one, or as none, unless it has one of these defects.** Then loading
publishes the cached model, or falls back to training; with a defect it fails with nothing done. -/
theorem read_succeeds_iff (c : ModelCache) (d : Disk) (env : Engine.Surroundings)
    (s : Engine.Session) :
    let env' := { env with cache := some c }
    let s' := { s with disk := d }
    ((∃ found, (c.read d).1 = .ok found) ↔ ¬ Unreadable c d) ∧
      ((Unreadable c d ∧
          ∃ e ws, Engine.load env' false s' = (.error (.cache e), s'.warn ws)) ∨
        (¬ Unreadable c d ∧
          ∃ ws, (∃ m, (c.read d).1 = .ok (some m) ∧
              Engine.load env' false s' = Engine.adopt env' m (s'.warn ws)) ∨
            ((c.read d).1 = .ok none ∧
              Engine.load env' false s' = Engine.loadByTraining env' (s'.warn ws)))) := by
  intro env' s'
  rw [← read_eq_error]
  unfold Engine.load
  dsimp only [env', s']
  rcases (c.read d).1 with e | _ | m
  · exact ⟨by simp, Or.inl ⟨⟨e, rfl⟩, e, _, rfl⟩⟩
  · exact ⟨by simp, Or.inr ⟨by simp, _, Or.inr ⟨rfl, rfl⟩⟩⟩
  · exact ⟨by simp, Or.inr ⟨by simp, _, Or.inl ⟨m, rfl, rfl⟩⟩⟩

/-! ### A list of checksums -/

def nameList : String :=
  "[\"manifest.json\", \"network.npz\", \"track_positions.json\"]"

/-- A cache folder with one version, whose manifest is empty and whose checksums are an array. -/
def listDisk : Disk where
  root := .folder [("cache", .folder [(pointerFile, .file "model-0".toUTF8),
    ("model-0", .folder [(manifestFile, .file "".toUTF8),
      (checksumFile, .file nameList.toUTF8)])])]
  here := []

def plainCache : ModelCache := ⟨⟨"", ["cache"]⟩, .standard⟩

lemma node_listDisk {p : Path} (h0 : '\x00' ∉ p.text.toList)
    (hl : ¬ Disk.longestPath < p.text.utf8ByteSize) (hr : p.root.isEmpty = true) :
    listDisk.node p = (listDisk.walk [] p.parts >>= fun place =>
      match listDisk.at? place with
      | some n => .ok n
      | none => .error .notFound) := by
  unfold Disk.node Disk.place
  rw [if_neg (by simpa using h0), if_neg hl, if_pos hr]
  rfl

lemma fits (name : String) (h : name.utf8ByteSize ≤ 255) :
    ¬ Disk.longestName < name.utf8ByteSize := by
  unfold Disk.longestName
  omega

lemma pointer_listDisk : listDisk.node plainCache.pointer = .ok (.file "model-0".toUTF8) := by
  have hp : plainCache.pointer = ⟨"", ["cache", "CURRENT"]⟩ := by decide
  rw [hp, node_listDisk (by decide) (by decide) rfl]
  simp [listDisk, Disk.walk, Disk.at?, Node.follow, Node.entry?, pointerFile, bind, Except.bind,
    fits "cache" (by decide), fits "CURRENT" (by decide)]

lemma manifest_listDisk :
    plainCache.look listDisk "model-0" manifestFile = .ok (.file "".toUTF8) := by
  have hp : (plainCache.version "model-0").child manifestFile =
      ⟨"", ["cache", "model-0", "manifest.json"]⟩ := by decide
  rw [look, hp, node_listDisk (by decide) (by decide) rfl]
  simp [listDisk, Disk.walk, Disk.at?, Node.follow, Node.entry?, pointerFile, manifestFile, bind,
    Except.bind, fits "cache" (by decide), fits "model-0" (by decide),
    fits "manifest.json" (by decide)]

lemma checksums_listDisk :
    plainCache.look listDisk "model-0" checksumFile = .ok (.file nameList.toUTF8) := by
  have hp : (plainCache.version "model-0").child checksumFile =
      ⟨"", ["cache", "model-0", "checksums.json"]⟩ := by decide
  rw [look, hp, node_listDisk (by decide) (by decide) rfl]
  simp [listDisk, Disk.walk, Disk.at?, Node.follow, Node.entry?, pointerFile, manifestFile,
    checksumFile, bind, Except.bind, fits "cache" (by decide), fits "model-0" (by decide),
    fits "checksums.json" (by decide)]

lemma parse_nameList : Json.parse plainCache.machine.readDepth nameList =
    .ok (.arr [.string manifestFile, .string networkFile, .string positionsFile]) := by
  cbv

/-- **An array of names in place of the checksums makes reading fail.** -/
theorem read_listDisk : ¬ ∃ found, (plainCache.read listDisk).1 = .ok found := by
  have hpoints : Points plainCache listDisk "model-0" :=
    ⟨"model-0", pointer_listDisk, by decide, by decide⟩
  have hbreak : Breakdown plainCache.machine (plainCache.look listDisk "model-0") := by
    refine .noObject _ ⟨nameList, checksums_listDisk, parse_nameList⟩ ?_ (by simp)
    intro name hname
    rcases List.mem_cons.1 hname with rfl | hname
    · rfl
    rcases List.mem_cons.1 hname with rfl | hname
    · rfl
    · rw [List.mem_singleton.1 hname]
      rfl
  obtain ⟨e, he⟩ := read_eq_error.2 (.version "model-0" hpoints ⟨_, manifest_listDisk⟩ hbreak)
  rw [he]
  simp

end SoundAtlas.ModelCache
