import SoundAtlas.Proofs.Cache.Contents

/-!
A cache over its whole history. However often models are written to it and the cache is removed, it
holds the model that was written last since, with the version before that, and nothing else.
-/

namespace SoundAtlas.ModelCache

open Cache Node

variable {c : ModelCache} {d d' : Disk} {w : Written} {ws : List Written}
  {entries : List (String × Node)}

/-! ### Actions -/

inductive Action where
  | write (w : Written)
  | invalidate

def Action.run (c : ModelCache) (d : Disk) : Action → Except Error Disk
  | .write w =>
    match (c.write d w.model w.names).1 with
    | (.ok (), d) => .ok d
    | (.error e, _) => .error e
  | .invalidate =>
    match c.invalidate d with
    | (.ok (), d) => .ok d
    | (.error e, _) => .error e

lemma run_write_eq_ok :
    (Action.write w).run c d = .ok d' ↔ (c.write d w.model w.names).1 = (.ok (), d') := by
  unfold Action.run
  dsimp only
  split
  · rename_i h
    rw [h, Except.ok.injEq, Prod.mk.injEq, eq_self_iff_true, true_and]
  · rename_i h
    simp [h]

def perform (c : ModelCache) (actions : List Action) (d : Disk) : Except Error Disk :=
  actions.foldlM (Action.run c) d

def remember (ws : List Written) : Action → List Written
  | .write w => w :: ws
  | .invalidate => []

/-- The models that have been written since the cache was last removed, the latest first. -/
def history (actions : List Action) : List Written :=
  actions.foldl remember []

/-- All models that are written. -/
def writes (actions : List Action) : List Written :=
  actions.filterMap fun
    | .write w => some w
    | .invalidate => none

/-- What is remembered are models that have been written, the latest first. -/
lemma history_sublist (actions : List Action) :
    (history actions).Sublist (writes actions).reverse := by
  induction actions using List.reverseRecOn with
  | nil => exact List.Sublist.refl _
  | append_singleton actions action ih =>
    rw [history, List.foldl_append, ← history, writes, List.filterMap_append, ← writes,
      List.reverse_append]
    cases action with
    | write w => exact ih.cons_cons w
    | invalidate => exact List.nil_sublist _

/-! ### What the cache holds -/

/-- The cache as its users see it after models have been written: the latest of them is read, it is
there, the pointer names its version, and the folder holds the pointer and the last two versions. If
none has been written there is no folder. -/
structure Holds (c : ModelCache) (d : Disk) (ws : List Written) : Prop where
  read : c.read d = (.ok (ws.head?.map fun w => w.model.restored), [])
  isThere : c.exists? d = (.ok ws.head?.isSome, [])
  current : c.current d = (.ok (latest ws), [])
  folder : match ws with
    | [] => ∀ n, d.node c.folder ≠ .ok n
    | w :: ws => ∃ entries, d.list c.folder = .ok entries ∧ entries.Perm (c.contents (w :: ws))

/-- The same, as it is kept from one action to the next. -/
inductive Stands (c : ModelCache) (d : Disk) : List Written → Prop
  | vacant (h : d.Vacant c.folder) : Stands c d []
  | holding {w : Written} {ws : List Written} {entries : List (String × Node)}
    (straight : d.IsStraight c.folder) (opens : d.Opens c.folder entries)
    (perm : entries.Perm (c.contents (w :: ws))) : Stands c d (w :: ws)

lemma serves_of_perm (h : d.Opens c.folder entries) (hs : ∀ v ∈ w :: ws, c.Suits v.names)
    (hd : Distinct (w :: ws)) (hperm : entries.Perm (c.contents (w :: ws))) :
    c.Serves w.names w.model d := by
  have hpointer := entry?_of_mem (nodup_of_perm hperm hs hd) (hperm.mem_iff.2 List.mem_cons_self)
  exact ⟨entries, h, hpointer, entry?_of_perm hperm hs hd List.mem_cons_self⟩

/-- **What stands is what users see.** -/
lemma Stands.holds (ha : Lossless c.machine) (h : c.Stands d ws)
    (hp : Disk.Accepts (c.folder.child pointerFile))
    (hw : ∀ v ∈ ws, v.Proper c) (hd : Distinct ws) : c.Holds d ws := by
  cases h with
  | vacant hv =>
    have hgone := Disk.not_node_of_none hv.absent
    obtain ⟨d₁, -, hopens⟩ := hv.opens
    have haccepts : Disk.Accepts c.folder := (Disk.place_eq_ok.1 hopens.at_place.1).1
    have hcurrent := current_of_not_node haccepts hp hgone
    obtain ⟨hread, hexists⟩ := read_of_current hcurrent
    exact ⟨hread, hexists, hcurrent, hgone⟩
  | @holding w ws entries hstraight hopens hperm =>
    have hproper := hw w List.mem_cons_self
    have hserves := serves_of_perm hopens (fun v hv => (hw v hv).suits) hd hperm
    have hexists : c.exists? d = (.ok true, []) := by
      unfold exists?
      rw [hserves.usable hproper.suits]
      rfl
    exact ⟨hserves.read ha hproper.suits hproper.onGrid
      (isWritable_of_withinLimit hproper.onGrid hproper.withinLimit), hexists,
      hserves.current hproper.suits, entries, hopens.list, hperm⟩

/-! ### One action -/

lemma Stands.made (h : c.Stands d ws) (hp : Disk.Accepts (c.folder.child pointerFile))
    (hs : ∀ v ∈ ws, c.Suits v.names) (hd : Distinct ws) :
    ∃ d₁ entries, d.makeFolders c.folder = .ok d₁ ∧ d₁.IsStraight c.folder ∧
      d₁.Opens c.folder entries ∧ entries.Perm (c.contents ws) ∧
      c.current d₁ = (.ok (latest ws), []) := by
  cases h with
  | vacant hv =>
    obtain ⟨d₁, hmade, hopens⟩ := hv.opens
    have hcurrent : c.current d₁ = (.ok none, []) := by
      have hread : d₁.read c.pointer = .error .notFound := by
        rw [Disk.read, pointer, hopens.node_child isName_pointerFile hp]
        rfl
      unfold ModelCache.current
      rw [hread]
    exact ⟨d₁, [], hmade,
      (Disk.isStraight_congr (Disk.here_makeFolders hmade)).2 hv.straight, hopens,
      List.Perm.refl _, hcurrent⟩
  | @holding w ws entries hstraight hopens hperm =>
    exact ⟨d, entries, hopens.makeFolders, hstraight, hopens, hperm,
      (serves_of_perm hopens hs hd hperm).current (hs w List.mem_cons_self)⟩

/-- **Writing a model** succeeds, and the model comes to those before. -/
lemma Stands.write (h : c.Stands d ws) (hp : ∀ v ∈ w :: ws, v.Proper c) (hd : Distinct (w :: ws)) :
    ∃ d', (Action.write w).run c d = .ok d' ∧ c.Stands d' (w :: ws) := by
  obtain ⟨hw, hws⟩ := List.forall_mem_cons.1 hp
  have hsuits : ∀ v ∈ ws, c.Suits v.names := fun v hv => (hws v hv).suits
  obtain ⟨d₁, entries, hmade, hstraight, hopens, hperm, hcurrent⟩ :=
    h.made hw.suits.acceptsPointer hsuits hd.of_cons
  obtain ⟨d', entries', hwrite, hopens', hperm'⟩ :=
    exists_writeVersion_contents hperm hsuits hopens hw hd
  refine ⟨d', ?_, .holding ((Disk.isStraight_congr (here_writeVersion hwrite)).2 hstraight) hopens'
    hperm'⟩
  unfold Action.run ModelCache.write
  rw [hmade]
  dsimp only
  rw [hcurrent, hopens.list]
  dsimp only
  rw [if_pos (isWritable_of_withinLimit hw.onGrid hw.withinLimit), hwrite]

/-- **Removing the cache** succeeds, and no model is left. -/
lemma Stands.invalidate (h : c.Stands d ws) :
    ∃ d', Action.invalidate.run c d = .ok d' ∧ c.Stands d' [] := by
  cases h with
  | vacant hv =>
    refine ⟨d, ?_, .vacant hv⟩
    unfold Action.run ModelCache.invalidate
    rw [hv.hasNode]
  | holding hstraight hopens _ =>
    obtain ⟨d', hremoved, -, hvacant⟩ := hopens.removeFolder_self hstraight
    have hthere : d.hasNode c.folder = .ok true := by
      obtain ⟨hplace, hat⟩ := hopens.at_place
      rw [Disk.hasNode, Disk.node_eq_ok.2 ⟨_, hplace, hat⟩]
      rfl
    refine ⟨d', ?_, .vacant hvacant⟩
    unfold Action.run ModelCache.invalidate
    rw [hthere]
    dsimp only
    rw [hremoved]
    rfl

/-! ### All actions -/

/-- **Every sequence of actions** succeeds, and leaves what is to be remembered. -/
lemma Stands.perform (h : c.Stands d ws) (actions : List Action)
    (hp : ∀ w ∈ writes actions ++ ws, w.Proper c) (hd : Distinct (writes actions ++ ws)) :
    ∃ d', c.perform actions d = .ok d' ∧ c.Stands d' (actions.foldl remember ws) := by
  induction actions generalizing d ws with
  | nil => exact ⟨d, rfl, h⟩
  | cons action actions ih =>
    cases action with
    | write w =>
      have hperm : (writes actions ++ w :: ws).Perm (w :: (writes actions ++ ws)) :=
        List.perm_middle
      have hd' : Distinct (writes actions ++ w :: ws) := (hperm.map _).nodup_iff.2 hd
      have hp' : ∀ v ∈ writes actions ++ w :: ws, v.Proper c :=
        fun v hv => hp v (hperm.mem_iff.1 hv)
      obtain ⟨d₁, hwrite, h₁⟩ := h.write (w := w) (fun v hv => hp' v (List.mem_append_right _ hv))
        (hd'.sublist ((List.sublist_append_right _ _).map _))
      obtain ⟨d', hd', h'⟩ := ih h₁ hp' hd'
      refine ⟨d', ?_, h'⟩
      rw [ModelCache.perform, List.foldlM_cons, hwrite]
      exact hd'
    | invalidate =>
      obtain ⟨d₁, hremoved, h₁⟩ := h.invalidate
      obtain ⟨d', hd', h'⟩ := ih h₁ (fun v hv => hp v (by
          rw [List.append_nil] at hv
          exact List.mem_append_left _ hv))
        (hd.sublist (by
          rw [List.append_nil]
          exact (List.sublist_append_left _ _).map _))
      refine ⟨d', ?_, h'⟩
      rw [ModelCache.perform, List.foldlM_cons, hremoved]
      exact hd'

/-- **A cache holds what was last written to it**, after every action of every sequence of them, if
arrays are kept without loss, there is nothing in the beginning, the models lie on their grids with
numbers within the digit limit, and the versions have names of their own: every action succeeds, the
model written last since the cache was removed is the one that is read, its version is the current
one, and in the folder are the pointer, this version and the one before, and nothing else. -/
theorem perform_holds (ha : Lossless c.machine) (hv : d.Vacant c.folder)
    (hp : Disk.Accepts (c.folder.child pointerFile))
    {actions : List Action} (hw : ∀ w ∈ writes actions, w.Proper c)
    (hd : Distinct (writes actions)) :
    ∀ done, done <+: actions →
      ∃ d', c.perform done d = .ok d' ∧ c.Holds d' (history done) := by
  intro done hdone
  have hsub : (writes done).Sublist (writes actions) := hdone.sublist.filterMap _
  have hw' : ∀ w ∈ writes done, w.Proper c := fun w h => hw w (hsub.subset h)
  have hd' : Distinct (writes done) := hd.sublist (hsub.map _)
  obtain ⟨d', hperform, hstands⟩ := (Stands.vacant hv).perform done
    (by simpa using hw') (by simpa using hd')
  have hhistory : (history done).Sublist (writes done).reverse := history_sublist done
  refine ⟨d', hperform, hstands.holds ha hp (fun w h => hw' w ?_) ?_⟩
  · exact List.mem_reverse.1 (hhistory.subset h)
  · exact ((List.reverse_perm _).map _).nodup_iff.2 hd' |>.sublist (hhistory.map _)

def laterModel : Model :=
  { sparseModel with positions := (∅ : TrackPositions).insert 9 ((∅ : PositionSet).insert ⟨1, 1⟩) }

def laterNames (version temporary pointer : String) : FreshNames :=
  { firstNames with version, temporary, pointer }

/-- A model that is written and removed, and two that are then written in turn. -/
def soleActions : List Action :=
  [.write ⟨sparseModel, firstNames⟩, .invalidate,
    .write ⟨laterModel, laterNames "model-2" ".tmp-2" ".pointer-2.tmp"⟩,
    .write ⟨sparseModel, laterNames "model-3" ".tmp-3" ".pointer-3.tmp"⟩,
    .write ⟨laterModel, laterNames "model-4" ".tmp-4" ".pointer-4.tmp"⟩]

lemma vacant_soleCache : Disk.empty.Vacant soleCache.folder :=
  ⟨by decide, rfl, soleDisk, rfl⟩

lemma onGrid_laterModel : laterModel.OnGrid := by
  refine (Grid.holds_empty _).insert 9 fun p hp => ?_
  simp only [PositionSet.mem_insert, Std.ExtTreeSet.not_mem_empty, or_false] at hp
  subst hp
  decide

lemma withinLimit_laterModel :
    WithinLimit soleCache.machine.archives laterModel firstNames.time where
  tracks := by
    intro track htrack
    simp only [laterModel, Std.ExtTreeMap.mem_insert, Std.LawfulEqOrd.compare_eq_iff_eq,
      Std.ExtTreeMap.not_mem_empty, or_false] at htrack
    subst htrack
    decide +kernel
  width := withinLimit_sparseModel.width
  height := withinLimit_sparseModel.height
  dimensions := withinLimit_sparseModel.dimensions
  count := by decide +kernel
  files := by decide +kernel

lemma restored_ne_laterModel : sparseModel.restored ≠ laterModel.restored := by
  intro heq
  have hpositions : sparseModel.positions = laterModel.positions := congrArg Model.positions heq
  have hsize : sparseModel.positions.size = laterModel.positions.size := by rw [hpositions]
  exact absurd hsize (by decide +kernel)

lemma proper_soleActions : ∀ w ∈ writes soleActions, w.Proper soleCache := by
  have hsuits : ∀ w ∈ writes soleActions, soleCache.Suits w.names ∧
      IsPassing w.names.temporary ∧ IsPassing w.names.pointer := by decide +kernel
  have hmodel : ∀ w ∈ writes soleActions,
      (w.model = sparseModel ∨ w.model = laterModel) ∧ w.names.time = firstNames.time := by
    simp [writes, soleActions, laterNames]
  intro w hw
  obtain ⟨hs, ht, hp⟩ := hsuits w hw
  obtain ⟨hm | hm, htime⟩ := hmodel w hw
  · exact ⟨hs, ht, hp, hm ▸ onGrid_sparseModel, by rw [hm, htime]; exact withinLimit_sparseModel⟩
  · exact ⟨hs, ht, hp, hm ▸ onGrid_laterModel, by rw [hm, htime]; exact withinLimit_laterModel⟩

theorem perform_holds_sole :
    (Lossless soleCache.machine ∧ Disk.empty.Vacant soleCache.folder ∧
      Disk.Accepts (soleCache.folder.child pointerFile)) ∧
      (∀ w ∈ writes soleActions, w.Proper soleCache) ∧ Distinct (writes soleActions) ∧
      sparseModel.restored ≠ laterModel.restored ∧
      (∀ done, done <+: soleActions → ∃ d, soleCache.perform done Disk.empty = .ok d ∧
        soleCache.Holds d (history done)) ∧
      (∃ d, soleCache.perform (soleActions.take 3) Disk.empty = .ok d ∧
        soleCache.read d = (.ok (some laterModel.restored), [])) ∧
      ∃ d, soleCache.perform (soleActions.take 4) Disk.empty = .ok d ∧
        soleCache.read d = (.ok (some sparseModel.restored), []) := by
  have haccepts : Disk.Accepts (soleCache.folder.child pointerFile) := by decide +kernel
  have hdistinct : Distinct (writes soleActions) := by decide +kernel
  have hall :=
    perform_holds lossless_soleCache vacant_soleCache haccepts proper_soleActions hdistinct
  obtain ⟨d₃, hperform₃, hholds₃⟩ := hall _ (List.take_prefix 3 _)
  obtain ⟨d₄, hperform₄, hholds₄⟩ := hall _ (List.take_prefix 4 _)
  exact ⟨⟨lossless_soleCache, vacant_soleCache, haccepts⟩, proper_soleActions, hdistinct,
    restored_ne_laterModel, hall, ⟨d₃, hperform₃, hholds₃.read⟩, d₄, hperform₄, hholds₄.read⟩

end SoundAtlas.ModelCache
