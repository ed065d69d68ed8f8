import SoundAtlas.Proofs.Cache.Writing
import SoundAtlas.Proofs.Search.Expansion

/-!
Models that are written and read back. As long as no number is too long for the files, and nothing
on the disk is in the way, writing succeeds, and reading gives the model with every bit of its
network and every position of its tracks.
-/

namespace SoundAtlas

namespace Cache

variable {archives : Archive.Format} {m : Model} {time : String}

/-- The whole numbers in the files of a model are within the digit limit: the tracks, and the sizes
of the network, of the model and of its files. -/
structure WithinLimit (archives : Archive.Format) (m : Model) (time : String) : Prop where
  tracks : ∀ track ∈ m.positions, Number.withinLimit track = true
  width : Number.withinLimit m.network.grid.width = true
  height : Number.withinLimit m.network.grid.height = true
  dimensions : Number.withinLimit m.network.dimensions = true
  count : Number.withinLimit m.positions.size = true
  files : ∀ f ∈ modelFiles archives m time, Number.withinLimit f.content.size = true

/-- What lies on a grid whose sizes are within the limit is within the limit. -/
lemma withinLimit_of_lt {n : ℤ} {size : ℕ} (hn : 0 ≤ n ∧ n < size)
    (hsize : Number.withinLimit size = true) : Number.withinLimit n = true := by
  rw [Number.withinLimit, decide_eq_true_eq] at hsize ⊢
  exact lt_of_le_of_lt (by omega) hsize

/-- **A model on its grid can be written** if its tracks and sizes are within the limit. -/
lemma isWritable_of_withinLimit (hm : m.OnGrid) (hl : WithinLimit archives m time) :
    isWritable archives m time = true := by
  have hmanifest : (manifest m time).isWritable = true := by
    rw [manifest, isWritable_object]
    simp only [List.forall_mem_cons, isWritable_int]
    exact ⟨by decide +kernel, hl.width, hl.height, hl.dimensions, hl.count, rfl,
      List.forall_mem_nil _⟩
  have hrows : (Json.arr (positionsRows m.positions)).isWritable = true := by
    rw [isWritable_arr]
    intro v hv
    obtain ⟨⟨track, ps⟩, he, rfl⟩ := List.mem_map.1 hv
    rw [positionsRow, isWritable_object, forall_mem_pair, isWritable_int, isWritable_arr]
    refine ⟨hl.tracks track (PositionSet.mem_of_mem_toList he), fun w hw => ?_⟩
    obtain ⟨p, hp, rfl⟩ := List.mem_map.1 hw
    have hgrid : m.network.grid.Contains p :=
      ModelIndex.contains_of_holds hm _ he p (Std.ExtTreeSet.mem_toList.1 hp)
    rw [positionJson, isWritable_arr, forall_mem_pair, isWritable_int, isWritable_int]
    exact ⟨withinLimit_of_lt hgrid.1 hl.width, withinLimit_of_lt hgrid.2 hl.height⟩
  rw [isWritable, hmanifest, hrows, Bool.and_self, Bool.true_and, List.all_eq_true]
  exact hl.files

end Cache

namespace ModelCache

open Cache

variable {c : ModelCache} {d : Disk} {m : Model} {names : FreshNames}

/-- **A model on its grid that is written is read back**, if arrays are kept without loss, nothing
is in the way of the files, and the tracks and sizes are within the digit limit: with the sizes, the
words of the reference vectors and of the weights, and the positions that it had, and trained. The
rows of the positions are the same in whatever order the tracks and the positions of each are given,
and they are written again as they were when they are read. -/
theorem write_then_read (ha : Lossless c.machine) (hu : c.Usable d names) (hc : c.Clear d names)
    (hm : m.OnGrid) (hl : WithinLimit c.machine.archives m names.time) :
    (∃ d' ws, c.write d m names = ((.ok (), d'), ws) ∧ c.read d' = (.ok (some m.restored), [])) ∧
      (m.restored.network.toShape = m.network.toShape ∧
        m.restored.network.references = m.network.references ∧
        m.restored.network.weights = m.network.weights ∧
        m.restored.network.state = .trained ∧ m.restored.positions = m.positions) ∧
      (∀ (tracks : List ℤ) (order : ℤ → List Position), tracks.Perm m.positions.keys →
        (∀ track ∈ m.positions, (order track).Perm (m.positions.getD track ∅).toList) →
        rowsInOrder tracks order = positionsRows m.positions) ∧
      ∃ rows, readTrackRows (.arr (positionsRows m.positions)) = .ok rows ∧
        positionsRows (positionsOfRows rows) = positionsRows m.positions := by
  have hw := isWritable_of_withinLimit hm hl
  obtain ⟨d', ws, hwrite, hserves⟩ := exists_write (m := m) hu hw hc
  refine ⟨⟨d', ws, hwrite, hserves.read ha hu.suits hm hw⟩, ⟨rfl, rfl, rfl, rfl, rfl⟩,
    fun tracks order ht ho => rowsInOrder_eq ht ho, m.positions.toList,
    readTrackRows_positionsRows m.positions, ?_⟩
  rw [positionsOfRows, ofList_toList_map]

/-- Four cells, one of them with a word that stands for no number, a track with a negative number in
another, and one that is in none. -/
def sparseModel : Model where
  network :=
    { Search.square with references := Search.square.references.set 3 #v[0xfff8000000000001] }
  positions := ((∅ : TrackPositions).insert (-7) ((∅ : PositionSet).insert ⟨0, 1⟩)).insert 4 ∅
  trained := Search.trained_square

def soleCache : ModelCache :=
  ⟨⟨"", ["cache"]⟩, .standard⟩

lemma lossless_soleCache : Lossless soleCache.machine :=
  Archive.lossless_standard (by decide)

def firstNames : FreshNames :=
  ⟨"model-1", ".tmp-1", ".pointer-1.tmp", "2024-01-01T00:00:00+00:00"⟩

def soleDisk : Disk :=
  ⟨.folder [("work", .folder [("cache", .folder [])])], ["work"]⟩

lemma onGrid_sparseModel : sparseModel.OnGrid := by
  refine ((Grid.holds_empty _).insert (-7) fun p hp => ?_).insert 4 fun p hp => ?_
  · simp only [PositionSet.mem_insert, Std.ExtTreeSet.not_mem_empty, or_false] at hp
    subst hp
    decide
  · simp at hp

lemma usable_soleCache : soleCache.Usable Disk.empty firstNames := by
  have hmade : Disk.empty.makeFolders soleCache.folder = .ok soleDisk := rfl
  have hlist : soleDisk.list soleCache.folder = .ok [] := rfl
  refine ⟨by decide +kernel, by decide, fun d₁ entries h hentries => ?_⟩
  obtain rfl : soleDisk = d₁ := Except.ok.inj (hmade.symm.trans h)
  obtain rfl : [] = entries := Except.ok.inj (hlist.symm.trans hentries)
  simp

lemma clear_soleCache : soleCache.Clear Disk.empty firstNames :=
  ⟨soleDisk, [], rfl, rfl, ⟨none, rfl⟩, ⟨rfl, rfl, by decide⟩,
    ⟨fun _ => nofun, fun _ => nofun⟩, by decide⟩

lemma withinLimit_sparseModel :
    WithinLimit soleCache.machine.archives sparseModel firstNames.time where
  tracks := by
    intro track htrack
    simp only [sparseModel, Std.ExtTreeMap.mem_insert, Std.LawfulEqOrd.compare_eq_iff_eq,
      Std.ExtTreeMap.not_mem_empty, or_false] at htrack
    rcases htrack with rfl | rfl <;> decide +kernel
  width := by decide +kernel
  height := by decide +kernel
  dimensions := by decide +kernel
  count := by decide +kernel
  files := by decide +kernel

theorem write_then_read_sparse :
    Lossless soleCache.machine ∧
      (soleCache.Usable Disk.empty firstNames ∧ soleCache.Clear Disk.empty firstNames) ∧
      (sparseModel.OnGrid ∧ WithinLimit soleCache.machine.archives sparseModel firstNames.time) ∧
      (∃ d ws, soleCache.write Disk.empty sparseModel firstNames = ((.ok (), d), ws) ∧
        soleCache.read d = (.ok (some sparseModel.restored), [])) ∧
      sparseModel.restored.network.references.toList[3]? = some #v[0xfff8000000000001] := by
  obtain ⟨hread, ⟨-, hreferences, -⟩, -⟩ := write_then_read lossless_soleCache usable_soleCache
    clear_soleCache onGrid_sparseModel withinLimit_sparseModel
  refine ⟨lossless_soleCache, ⟨usable_soleCache, clear_soleCache⟩,
    ⟨onGrid_sparseModel, withinLimit_sparseModel⟩, hread, ?_⟩
  rw [hreferences]
  decide +kernel

end ModelCache

end SoundAtlas
