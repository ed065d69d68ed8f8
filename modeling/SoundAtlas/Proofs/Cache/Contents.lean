import SoundAtlas.Proofs.Cache.RoundTrip
import SoundAtlas.Proofs.Storage.Making

/-!
What the folder of a cache holds. When a model is written to a folder that holds nothing but the
pointer and the last versions, the same is true afterwards: the pointer names the new version, the
version before that stays, older ones go, and nothing is left of the work.
-/

namespace SoundAtlas.ModelCache

open Cache Node

variable {c : ModelCache} {d d' : Disk} {m : Model} {names : FreshNames}
  {entries : List (String × Node)} {name new : String} {previous : Option String}

/-! ### Pruning -/

lemma mem_staleVersions : name ∈ staleVersions entries new previous ↔
    (∃ inner, (name, .folder inner) ∈ entries) ∧ versionStart.toList.isPrefixOf name.toList = true ∧
      name ≠ new ∧ some name ≠ previous := by
  simp only [staleVersions, List.mem_map, List.mem_filter, Bool.and_eq_true, decide_eq_true_eq]
  constructor
  · rintro ⟨⟨name, _ | inner⟩, ⟨he, ⟨⟨hfolder, hstart⟩, hnew⟩, hprevious⟩, rfl⟩
    · cases hfolder
    · exact ⟨⟨inner, he⟩, hstart, hnew, hprevious⟩
  · rintro ⟨⟨inner, he⟩, hstart, hnew, hprevious⟩
    exact ⟨(name, .folder inner), ⟨he, ⟨⟨rfl, hstart⟩, hnew⟩, hprevious⟩, rfl⟩

/-- **Versions are pruned** with nothing else changed, if there are folders of their names. -/
lemma applyAll_pruning_eq (h : d.Opens c.folder entries) {stale : List String} (hd : stale.Nodup)
    (hs : ∀ name ∈ stale, Disk.IsName name ∧ Disk.Accepts (c.version name) ∧
      ∃ inner, entry? name entries = some (.folder inner)) :
    ∃ d', applyAll (stale.map fun name => .removeFolder (c.version name)) d = .ok d' ∧
      d'.Opens c.folder (entries.filter fun e => decide (e.1 ∉ stale)) := by
  induction stale generalizing d entries with
  | nil => exact ⟨d, rfl, by simpa using h⟩
  | cons name stale ih =>
    rw [List.nodup_cons] at hd
    obtain ⟨⟨hname, haccepts, inner, hinner⟩, hs⟩ := List.forall_mem_cons.1 hs
    have hremoved := h.removeFolder hname haccepts
    rw [hinner] at hremoved
    dsimp only at hremoved
    obtain ⟨d', hd', hopens⟩ := ih (h.change_entries (dropEntry name)) hd.2 fun other hother => by
      obtain ⟨hn, ha, inner, hi⟩ := hs other hother
      refine ⟨hn, ha, inner, ?_⟩
      rw [entry?_dropEntry, if_neg (by rintro rfl; exact hd.1 hother), hi]
    have hremove : (Effect.removeFolder (c.version name)).apply d =
        .ok (d.change (c.folder.placeFrom d.here) (dropEntry name)) := by
      change Except.ok (d.removeFolder (c.folder.child name)).2 = _
      rw [hremoved]
    refine ⟨d', ?_, ?_⟩
    · rw [List.map_cons, applyAll_cons hremove]
      exact hd'
    · rw [dropEntry, List.filter_filter] at hopens
      convert hopens using 3 with e
      simp [Bool.and_comm]

/-! ### The pointer and the last versions -/

structure Written where
  model : Model
  names : FreshNames

def versionEntry (c : ModelCache) (w : Written) : String × Node :=
  (w.names.version, .folder (c.versionEntries w.model w.names.time))

/-- What a cache folder holds after models have been written to it, the latest first: the pointer to
the latest version, and this version with the one before. -/
def contents (c : ModelCache) : List Written → List (String × Node)
  | [] => []
  | w :: ws => (pointerFile, .file w.names.version.toUTF8) :: ((w :: ws).take 2).map c.versionEntry

def latest (ws : List Written) : Option String :=
  ws.head?.map fun w => w.names.version

/-- A name that is neither that of the pointer nor one that a version may have. -/
def IsPassing (name : String) : Prop :=
  name ≠ pointerFile ∧ isVersionName name = false

instance (name : String) : Decidable (IsPassing name) :=
  inferInstanceAs (Decidable (_ ∧ _))

/-- A model that can be written and read back: its tracks lie on its grid, its numbers are not too
long, and the names under which it is prepared are no others. -/
structure Written.Proper (c : ModelCache) (w : Written) : Prop where
  suits : c.Suits w.names
  temporary : IsPassing w.names.temporary
  pointer : IsPassing w.names.pointer
  onGrid : w.model.OnGrid
  withinLimit : WithinLimit c.machine.archives w.model w.names.time

/-- The versions have names of their own. -/
def Distinct (ws : List Written) : Prop :=
  (ws.map fun w => w.names.version).Nodup

instance (ws : List Written) : Decidable (Distinct ws) :=
  inferInstanceAs (Decidable (List.Nodup _))

variable {w : Written} {ws : List Written}

lemma Distinct.of_cons (hd : Distinct (w :: ws)) : Distinct ws :=
  (List.nodup_cons.1 hd).2

lemma Distinct.ne (hd : Distinct (w :: ws)) {v : Written} (hv : v ∈ ws) :
    w.names.version ≠ v.names.version := fun heq =>
  (List.nodup_cons.1 hd).1 (List.mem_map.2 ⟨v, hv, heq.symm⟩)

lemma IsPassing.ne (h : IsPassing name) (hs : c.Suits names) : name ≠ names.version := by
  rintro rfl
  exact Bool.false_ne_true (h.2.symm.trans hs.isVersion)

lemma mem_contents {e : String × Node} (h : e ∈ c.contents ws) :
    (∃ content, e = (pointerFile, .file content)) ∨ ∃ w ∈ ws.take 2, e = c.versionEntry w := by
  cases ws with
  | nil => cases h
  | cons w ws =>
    rcases List.mem_cons.1 h with rfl | h
    · exact Or.inl ⟨_, rfl⟩
    · obtain ⟨v, hv, rfl⟩ := List.mem_map.1 h
      exact Or.inr ⟨v, hv, rfl⟩

lemma entry_mem_contents {v : Written} (hv : v ∈ ws.take 2) : c.versionEntry v ∈ c.contents ws := by
  cases ws with
  | nil => cases hv
  | cons w ws => exact List.mem_cons_of_mem _ (List.mem_map_of_mem hv)

lemma mem_names_contents (h : name ∈ (c.contents ws).map (·.1)) :
    name = pointerFile ∨ ∃ w ∈ ws, name = w.names.version := by
  obtain ⟨e, he, rfl⟩ := List.mem_map.1 h
  obtain ⟨content, rfl⟩ | ⟨w, hw, rfl⟩ := mem_contents he
  · exact Or.inl rfl
  · exact Or.inr ⟨w, List.mem_of_mem_take hw, rfl⟩

lemma nodup_contents (hs : ∀ w ∈ ws, c.Suits w.names) (hd : Distinct ws) :
    ((c.contents ws).map (·.1)).Nodup := by
  cases ws with
  | nil => exact List.nodup_nil
  | cons w ws =>
    rw [ModelCache.contents, List.map_cons, List.nodup_cons, List.map_map]
    refine ⟨fun hmem => ?_, ?_⟩
    · obtain ⟨v, hv, heq⟩ := List.mem_map.1 hmem
      exact (hs v (List.mem_of_mem_take hv)).version_ne_pointerFile heq
    · rw [List.map_take]
      exact hd.sublist (List.take_sublist 2 _)

/-! ### One version more -/

section OneMore

variable (hperm : entries.Perm (c.contents ws)) (hs : ∀ v ∈ ws, c.Suits v.names)

include hperm in
lemma entry?_eq_none_of_perm (hp : name ≠ pointerFile) (hv : ∀ v ∈ ws, name ≠ v.names.version) :
    entry? name entries = none := by
  rw [entry?_eq_none, (hperm.map _).mem_iff]
  intro hmem
  obtain rfl | ⟨v, hvw, rfl⟩ := mem_names_contents hmem
  · exact hp rfl
  · exact hv v hvw rfl

include hperm hs in
/-- Nothing is left of what was in use while a version was made. -/
lemma entry?_of_isPassing (h : IsPassing name) : entry? name entries = none :=
  entry?_eq_none_of_perm hperm h.1 fun v hv => h.ne (hs v hv)

include hperm hs in
lemma nodup_of_perm (hd : Distinct ws) : (entries.map (·.1)).Nodup :=
  (hperm.map _).nodup_iff.2 (nodup_contents hs hd)

include hperm hs in
lemma entry?_of_perm (hd : Distinct ws) {v : Written} (hv : v ∈ ws.take 2) :
    entry? v.names.version entries = some (.folder (c.versionEntries v.model v.names.time)) :=
  entry?_of_mem (nodup_of_perm hperm hs hd) (hperm.mem_iff.2 (entry_mem_contents hv))

include hperm hs in
lemma fresh_of_perm (hw : w.Proper c) (hd : Distinct (w :: ws)) :
    Fresh w.names entries ∧ Movable w.names entries ∧ w.names.pointer ≠ w.names.version := by
  refine ⟨⟨entry?_of_isPassing hperm hs hw.temporary, ?_, hw.temporary.ne hw.suits⟩,
    ⟨fun inner => ?_, fun inner hinner => ?_⟩, hw.pointer.ne hw.suits⟩
  · exact entry?_eq_none_of_perm hperm hw.suits.version_ne_pointerFile fun v hv => hd.ne hv
  · rw [entry?_of_isPassing hperm hs hw.pointer]
    exact nofun
  · obtain ⟨content, hpointer⟩ | ⟨v, hv, hentry⟩ :=
      mem_contents (hperm.mem_iff.1 (mem_of_entry?_eq hinner))
    · cases congrArg Prod.snd hpointer
    · exact (hs v (List.mem_of_mem_take hv)).version_ne_pointerFile (congrArg Prod.fst hentry).symm

/-- Without the pointer there are the last two versions. -/
lemma dropEntry_contents (hs : ∀ v ∈ ws, c.Suits v.names) :
    dropEntry pointerFile (c.contents ws) = (ws.take 2).map c.versionEntry := by
  cases ws with
  | nil => rfl
  | cons v vs =>
    rw [ModelCache.contents, dropEntry, List.filter_cons, if_neg (by simp), ← dropEntry]
    refine dropEntry_of_none (entry?_eq_none.2 fun hmem => ?_)
    obtain ⟨e, he, heq⟩ := List.mem_map.1 hmem
    obtain ⟨u, hu, rfl⟩ := List.mem_map.1 he
    exact (hs u (List.mem_of_mem_take hu)).version_ne_pointerFile heq

include hperm hs in
lemma mem_stale_of_perm (hd : Distinct (w :: ws)) :
    name ∈ staleVersions entries w.names.version (latest ws) ↔
      ∃ v ∈ (ws.take 2).drop 1, name = v.names.version := by
  rw [mem_staleVersions]
  constructor
  · rintro ⟨⟨inner, hmem⟩, -, -, hprevious⟩
    obtain ⟨content, hpointer⟩ | ⟨v, hv, hentry⟩ := mem_contents (hperm.mem_iff.1 hmem)
    · cases congrArg Prod.snd hpointer
    · obtain rfl : name = v.names.version := congrArg Prod.fst hentry
      cases ws with
      | nil => cases hv
      | cons u us =>
        rcases List.mem_cons.1 hv with rfl | hv
        · exact absurd rfl hprevious
        · exact ⟨v, hv, rfl⟩
  · rintro ⟨v, hv, rfl⟩
    have hv₂ : v ∈ ws.take 2 := List.mem_of_mem_drop hv
    have hv₁ : v ∈ ws := List.mem_of_mem_take hv₂
    have hversion := (hs v hv₁).isVersion
    rw [isVersionName, Bool.and_eq_true] at hversion
    rw [Distinct, List.map_cons, List.nodup_cons] at hd
    refine ⟨⟨_, hperm.mem_iff.2 (entry_mem_contents hv₂)⟩, hversion.1, fun heq => ?_, fun heq => ?_⟩
    · exact hd.1 (heq ▸ List.mem_map_of_mem hv₁)
    · cases ws with
      | nil => cases hv
      | cons u us =>
        rw [List.map_cons, List.nodup_cons] at hd
        have heq' : v.names.version = u.names.version := Option.some.inj heq
        exact hd.2.1 (heq' ▸ List.mem_map_of_mem (List.mem_of_mem_take hv))

/-- What is left of the last two versions when the older one goes. -/
lemma filter_entries (hd : Distinct ws) {stale : List String}
    (hstale : ∀ name, name ∈ stale ↔ ∃ v ∈ (ws.take 2).drop 1, name = v.names.version) :
    (((ws.take 2).map c.versionEntry).filter fun e => decide (e.1 ∉ stale)) =
      (ws.take 1).map c.versionEntry := by
  match ws with
  | [] => rfl
  | [v] => simp [versionEntry, hstale]
  | v :: u :: us =>
    have hne : v.names.version ≠ u.names.version := hd.ne List.mem_cons_self
    simp [versionEntry, hstale, hne]

include hperm hs in
/-- Once the pointer names the new version, there are the pointer, the last two versions and it. -/
lemma pointed_perm (hw : w.Proper c) (hd : Distinct (w :: ws)) :
    (pointed w.names (entries ++ [c.versionEntry w])).Perm
      ((pointerFile, .file w.names.version.toUTF8) ::
        ((ws.take 2).map c.versionEntry ++ [c.versionEntry w])) := by
  obtain ⟨hfresh, -, hne⟩ := fresh_of_perm hperm hs hw hd
  have hpointer : entry? w.names.pointer (entries ++ [c.versionEntry w]) = none := by
    rw [versionEntry, ← setEntry_of_none hfresh.version, entry?_setEntry, if_neg hne.symm]
    exact entry?_of_isPassing hperm hs hw.pointer
  have hnodup : ((entries ++ [c.versionEntry w]).map (·.1)).Nodup := by
    rw [List.map_append, List.nodup_append_comm]
    exact List.nodup_cons.2 ⟨entry?_eq_none.1 hfresh.version, nodup_of_perm hperm hs hd.of_cons⟩
  have hothers : (dropEntry pointerFile (entries ++ [c.versionEntry w])).Perm
      ((ws.take 2).map c.versionEntry ++ [c.versionEntry w]) := by
    have hw' : dropEntry pointerFile [c.versionEntry w] = [c.versionEntry w] := by
      simp [dropEntry, versionEntry, hw.suits.version_ne_pointerFile]
    rw [dropEntry, List.filter_append, ← dropEntry, ← dropEntry, hw', ← dropEntry_contents hs]
    exact (hperm.filter _).append_right _
  rw [pointed, dropEntry_of_none hpointer]
  exact (setEntry_perm hnodup _ _).trans (hothers.cons _)

include hperm hs in
/-- The last two versions stay while the pointer moves. -/
lemma entry?_pointed_of_perm (hw : w.Proper c) (hd : Distinct (w :: ws)) {v : Written}
    (hv : v ∈ ws.take 2) :
      entry? v.names.version (pointed w.names (entries ++ [c.versionEntry w])) =
      some (.folder (c.versionEntries v.model v.names.time)) := by
  have hv₁ : v ∈ ws := List.mem_of_mem_take hv
  obtain ⟨hfresh, -, -⟩ := fresh_of_perm hperm hs hw hd
  rw [pointed, entry?_setEntry, if_neg (hs v hv₁).version_ne_pointerFile.symm, entry?_dropEntry,
    if_neg (hw.pointer.ne (hs v hv₁)), versionEntry, ← setEntry_of_none hfresh.version,
    entry?_setEntry, if_neg (hd.ne hv₁)]
  exact entry?_of_perm hperm hs hd.of_cons hv

include hperm hs in
/-- **A version is written** beside the pointer and the last versions, and takes its place among
them. -/
lemma exists_writeVersion_contents (h : d.Opens c.folder entries) (hw : w.Proper c)
    (hd : Distinct (w :: ws)) :
    ∃ d' entries', c.writeVersion d w.model w.names entries (latest ws) = (.ok (), d') ∧
      d'.Opens c.folder entries' ∧ entries'.Perm (c.contents (w :: ws)) := by
  obtain ⟨hfresh, hfree, hne⟩ := fresh_of_perm hperm hs hw hd
  obtain ⟨made, hmade, hopens⟩ := applyAll_making (m := w.model) hw.suits h hfresh
  obtain ⟨moved, hmoved, hopens'⟩ := applyAll_pointing hw.suits hopens
    ((movable_append hw.suits hfresh.version).2 ⟨hfree, hne⟩)
  have hstale : ∀ name, name ∈ staleVersions entries w.names.version (latest ws) ↔
      ∃ v ∈ (ws.take 2).drop 1, name = v.names.version := fun _ => mem_stale_of_perm hperm hs hd
  have hnodup : (staleVersions entries w.names.version (latest ws)).Nodup :=
    (nodup_of_perm hperm hs hd.of_cons).sublist (List.filter_sublist.map _)
  obtain ⟨pruned, hpruned, hopens''⟩ := applyAll_pruning_eq hopens' hnodup fun name hname => by
    obtain ⟨v, hv, rfl⟩ := (hstale name).1 hname
    have hv₂ : v ∈ ws.take 2 := List.mem_of_mem_drop hv
    have hsuits := hs v (List.mem_of_mem_take hv₂)
    exact ⟨hsuits.version, hsuits.acceptsVersion, _, entry?_pointed_of_perm hperm hs hw hd hv₂⟩
  have hpointer : pointerFile ∉ staleVersions entries w.names.version (latest ws) :=
    fun hmem => (staleVersions_spec hmem).2.2 rfl
  have hnew : (c.versionEntry w).1 ∉ staleVersions entries w.names.version (latest ws) :=
    fun hmem => (staleVersions_spec hmem).2.1 rfl
  refine ⟨pruned, _, ?_, hopens'', ((pointed_perm hperm hs hw hd).filter _).trans ?_⟩
  · have hpublished : applyAll (c.publishing w.names entries (latest ws)) made = .ok pruned :=
      (applyAll_append hmoved _).trans hpruned
    unfold writeVersion
    rw [hmade]
    dsimp only
    rw [hpublished]
  · rw [List.filter_cons, if_pos (by simpa using hpointer), List.filter_append,
      filter_entries hd.of_cons hstale, List.filter_cons, if_pos (decide_eq_true hnew)]
    exact List.perm_append_comm.cons _

end OneMore

/-! ### Where paths start -/

lemma here_applyAll {effects : List Effect} (h : applyAll effects d = .ok d') :
    d'.here = d.here := by
  induction effects generalizing d with
  | nil =>
    obtain rfl : d = d' := Except.ok.inj h
    rfl
  | cons e effects ih =>
    obtain ⟨d₁, he, hrest⟩ := exists_of_applyAll_cons h
    refine (ih hrest).trans ?_
    cases e with
    | makeFolder p => exact Disk.here_makeFolder he
    | write p content => exact Disk.here_write he
    | move p q => exact Disk.here_move he
    | removeFolder p =>
      obtain rfl : (d.removeFolder p).2 = d₁ := Except.ok.inj he
      exact Disk.here_removeFolder d p

lemma here_writeVersion (h : c.writeVersion d m names entries previous = (.ok (), d')) :
    d'.here = d.here := by
  unfold writeVersion at h
  split at h
  · cases h
  · rename_i made hmade
    split at h
    · cases h
    · rename_i published hpublished
      obtain rfl : published = d' := congrArg Prod.snd h
      exact (here_applyAll hpublished).trans (here_applyAll hmade)

end SoundAtlas.ModelCache
