import SoundAtlas.Feature.Source
import SoundAtlas.Proofs.Chains
import SoundAtlas.Proofs.Number.Reading
import SoundAtlas.Proofs.Storage.Folder

/-!
The tracks that a folder of documents lists, and the documents that are looked up in it. A track is
listed by the digits in the name of a file, and its document is looked up by the number as it is
shown. The two agree exactly if all digits write their number as it is shown.
-/

namespace SoundAtlas.Feature

open Number (readWhole? withinLimit digitLimit)

variable {d : Disk} {folder : Path} {entries : List (String × Node)} {names : List String}
  {name digits : String} {v : ℤ}

/-! ### Names of documents -/

lemma toList_documentName (n : ℕ) :
    (documentName n).toList = Nat.toDigits 10 n ++ ".json".toList := by
  rw [documentName, String.toList_append, Number.toList_toString_natCast]

lemma documentName_component (n : ℕ) :
    Path.ofString (documentName n) = ⟨"", [documentName n]⟩ ∧ documentName n ≠ ".." := by
  have hne {s : String} (hs : s.length < 5) : documentName n ≠ s := by
    rintro rfl
    rw [← String.length_toList, toList_documentName, List.length_append] at hs
    exact absurd hs (by simp)
  refine ⟨Path.ofString_of_not_mem ?_ (hne (by decide)) (hne (by decide)), hne (by decide)⟩
  rw [toList_documentName, List.mem_append, not_or]
  refine ⟨fun h => ?_, by decide⟩
  exact absurd (Nat.isDigit_of_mem_toDigits (by decide) (by decide) h) (by decide)

lemma digitsOf?_eq_some : digitsOf? name = some digits ↔
    name = digits ++ ".json" ∧ digits ≠ "" ∧ ∀ c ∈ digits.toList, Text.isDigit c = true := by
  rw [digitsOf?]
  constructor
  · intro h
    split at h
    · rename_i hname
      obtain rfl := Option.some.inj h
      refine ⟨String.toList_inj.1 ?_, hname.2.1, List.all_eq_true.1 hname.2.2⟩
      rw [String.toList_append, String.toList_ofList, ← hname.1, List.take_append_drop]
    · cases h
  · rintro ⟨rfl, hne, hdigits⟩
    have hlen : (digits ++ ".json").length - 5 = digits.toList.length := by
      rw [String.length_append, String.length_toList]
      rfl
    have htake : String.ofList ((digits ++ ".json").toList.take digits.toList.length) = digits := by
      rw [String.toList_append, List.take_left, String.ofList_toList]
    rw [hlen, htake, String.toList_append, List.drop_left,
      if_pos ⟨rfl, hne, List.all_eq_true.2 hdigits⟩]

lemma digitsOf?_documentName (n : ℕ) : digitsOf? (documentName n) = some (toString (n : ℤ)) :=
  digitsOf?_eq_some.2 ⟨rfl, Number.toString_natCast_ne n, Number.isDigit_toString n⟩

/-! ### Listing -/

/-- The track whose number is written in the name of a file. -/
def trackOf? (name : String) : Option Int :=
  (digitsOf? name).bind readWhole?

/-- The digits in the names of files all write numbers. -/
def Readable (names : List String) : Prop :=
  ∀ name ∈ names, ∀ digits, digitsOf? name = some digits → (readWhole? digits).isSome = true

lemma nonneg_of_trackOf? (h : trackOf? name = some v) : 0 ≤ v := by
  obtain ⟨digits, hdigits, hv⟩ := Option.bind_eq_some_iff.1 h
  obtain ⟨-, hne, hcounted⟩ := digitsOf?_eq_some.1 hdigits
  rw [Number.readWhole?_digits hne hcounted] at hv
  split at hv
  · rw [← Option.some.inj hv]
    exact Int.natCast_nonneg _
  · cases hv

lemma trackOf?_documentName (n : ℕ) :
    trackOf? (documentName n) = if withinLimit n = true then some (n : ℤ) else none := by
  rw [trackOf?, digitsOf?_documentName, Option.bind_some, Number.readWhole?_toString]

lemma pairwise_lt_sorted_iff {l : List ℤ} :
    (l.mergeSort fun a b => decide (a ≤ b)).Pairwise (· < ·) ↔ l.Nodup := by
  have hnodup := (List.mergeSort_perm l fun a b => decide (a ≤ b)).nodup_iff
  rw [← hnodup]
  exact ⟨fun h => h.imp fun hlt => hlt.ne,
    fun h => ((List.pairwise_mergeSort' (· ≤ ·) l).and h).imp fun hle => lt_of_le_of_ne hle.1 hle.2⟩

/-- What is picked out is there once if no two are picked out as the same. -/
lemma nodup_filterMap_iff {α β : Type} {f : α → Option β} {l : List α} (hl : l.Nodup) :
    (l.filterMap f).Nodup ↔
      ∀ a ∈ l, ∀ a' ∈ l, ∀ b, f a = some b → f a' = some b → a = a' := by
  rw [List.Nodup, List.pairwise_filterMap]
  constructor
  · intro h a ha a' ha' b hb hb'
    by_contra hne
    have : Std.Symm fun a a' => ∀ b, f a = some b → ∀ b', f a' = some b' → b ≠ b' :=
      ⟨fun a a' hr b' hb' b hb => (hr b hb b' hb').symm⟩
    exact h.forall ha ha' hne b hb b hb' rfl
  · intro h
    refine hl.imp_of_mem fun ha ha' hne b hb b' hb' heq => hne ?_
    subst heq
    exact h _ ha _ ha' b hb hb'

/-- Digits write a number if they are decimal and not too many. -/
lemma readable_iff : Readable names ↔ ∀ name ∈ names, ∀ digits, digitsOf? name = some digits →
    (∀ c ∈ digits.toList, (Text.decimalValue? c).isSome = true) ∧ digits.length ≤ digitLimit := by
  refine forall₄_congr fun name _ digits hdigits => ?_
  obtain ⟨-, hne, hcounted⟩ := digitsOf?_eq_some.1 hdigits
  rw [Number.readWhole?_digits hne hcounted, Option.isSome_ite]

lemma map_digits (h : Readable names) :
    (names.filterMap digitsOf?).map (fun digits => (readWhole? digits).getD 0) =
      names.filterMap trackOf? := by
  rw [List.map_filterMap]
  refine List.filterMap_congr fun name hname => ?_
  cases hd : digitsOf? name with
  | none => rw [trackOf?, hd, Option.map_none, Option.bind_none]
  | some digits =>
    obtain ⟨v, hv⟩ := Option.isSome_iff_exists.1 (h name hname digits hd)
    rw [trackOf?, hd, Option.map_some, Option.bind_some, hv, Option.getD_some]

def readTrack (digits : String) : Except Json.ReadError Int :=
  (readWhole? digits).elim (.error .badInteger) .ok

lemma trackIds_eq (hlist : d.list folder = .ok entries) :
    trackIds d folder = ((entries.map (·.1)).filterMap digitsOf?).mapM readTrack >>=
      fun ids => .ok (ids.mergeSort fun a b => decide (a ≤ b)) := by
  rw [trackIds, hlist, List.filterMap_map]
  dsimp only
  congr 2
  funext digits
  rw [readTrack]
  cases readWhole? digits <;> rfl

/-- **The tracks of a folder are listed** if all digits write numbers. -/
lemma trackIds_eq_ok (hlist : d.list folder = .ok entries) {ids : List ℤ} :
    trackIds d folder = .ok ids ↔ Readable (entries.map (·.1)) ∧
      ids = ((entries.map (·.1)).filterMap trackOf?).mergeSort fun a b => decide (a ≤ b) := by
  have hstep (digits : String) (v : ℤ) : readTrack digits = .ok v ↔
      (readWhole? digits).isSome = true ∧ v = (readWhole? digits).getD 0 := by
    rw [readTrack]
    cases readWhole? digits <;> simp [eq_comm]
  have hread : Readable (entries.map (·.1)) ↔
      ∀ digits ∈ (entries.map (·.1)).filterMap digitsOf?, (readWhole? digits).isSome = true :=
    List.forall_mem_filterMap.symm
  rw [trackIds_eq hlist, bind_eq_ok]
  simp only [mapM_eq_ok fun digits _ => hstep digits, ← hread]
  constructor
  · rintro ⟨tracks, ⟨hall, rfl⟩, hids⟩
    rw [map_digits hall] at hids
    exact ⟨hall, (Except.ok.inj hids).symm⟩
  · rintro ⟨hall, rfl⟩
    exact ⟨_, ⟨hall, rfl⟩, by rw [map_digits hall]⟩

/-- Among names whose digits write numbers, that of a document writes the number of its track. -/
lemma trackOf?_of_mem (hread : Readable names) {n : ℕ} (h : documentName n ∈ names) :
    withinLimit n = true ∧ trackOf? (documentName n) = some (n : ℤ) := by
  have hsome := hread _ h _ (digitsOf?_documentName n)
  rw [Number.readWhole?_toString] at hsome
  split at hsome
  · rename_i hlimit
    exact ⟨hlimit, by rw [trackOf?_documentName, if_pos hlimit]⟩
  · cases hsome

/-- **What is listed is what can be looked up** if each name with digits is that of a document. -/
lemma nodup_and_mem_iff (hnames : names.Nodup) (hread : Readable names) :
    ((names.filterMap trackOf?).Nodup ∧
      ∀ i, i ∈ names.filterMap trackOf? ↔ 0 ≤ i ∧ documentName i ∈ names) ↔
      ∀ name ∈ names, ∀ digits, digitsOf? name = some digits →
        ∃ n : ℕ, withinLimit n = true ∧ name = documentName n := by
  constructor
  · rintro ⟨hnodup, hmem⟩ name hname digits hdigits
    obtain ⟨v, hv⟩ := Option.isSome_iff_exists.1 (hread name hname digits hdigits)
    have htrack : trackOf? name = some v := by rw [trackOf?, hdigits, Option.bind_some, hv]
    obtain ⟨hnonneg, hdocument⟩ := (hmem v).1 (List.mem_filterMap.2 ⟨name, hname, htrack⟩)
    obtain ⟨n, rfl⟩ := Int.eq_ofNat_of_zero_le hnonneg
    obtain ⟨hlimit, hsame⟩ := trackOf?_of_mem hread hdocument
    exact ⟨n, hlimit, (nodup_filterMap_iff hnames).1 hnodup _ hname _ hdocument _ htrack hsame⟩
  · intro hplain
    have hback (name : String) (hname : name ∈ names) (v : ℤ) (hv : trackOf? name = some v) :
        name = documentName v := by
      obtain ⟨digits, hdigits, -⟩ := Option.bind_eq_some_iff.1 hv
      obtain ⟨n, hlimit, rfl⟩ := hplain name hname digits hdigits
      rw [trackOf?_documentName, if_pos hlimit] at hv
      rw [Option.some.inj hv]
    refine ⟨(nodup_filterMap_iff hnames).2 fun a ha a' ha' v hv hv' => ?_, fun i => ⟨?_, ?_⟩⟩
    · rw [hback a ha v hv, ← hback a' ha' v hv']
    · intro hi
      obtain ⟨name, hname, hv⟩ := List.mem_filterMap.1 hi
      exact ⟨nonneg_of_trackOf? hv, hback name hname i hv ▸ hname⟩
    · rintro ⟨hnonneg, hdocument⟩
      obtain ⟨n, rfl⟩ := Int.eq_ofNat_of_zero_le hnonneg
      exact List.mem_filterMap.2 ⟨_, hdocument, (trackOf?_of_mem hread hdocument).2⟩

/-- **A folder lists exactly the tracks whose documents it holds**, each once and in order, if and
only if all digits before `.json` write their number as it is shown. The listing succeeds exactly if
all of them are decimal and not too many, and then no track is left out whose document is there. A
document is there, for whoever looks it up, if its name is among those in the folder and neither the
name nor the path is too long. -/
theorem trackIds_lists_documents_iff (d : Disk) (folder : Path) (entries : List (String × Node))
    (hlist : d.list folder = .ok entries) (hnames : (entries.map (·.1)).Nodup) :
    let names := entries.map (·.1)
    ((∃ ids, trackIds d folder = .ok ids ∧ ids.Pairwise (· < ·) ∧
        ∀ i, i ∈ ids ↔ 0 ≤ i ∧ documentName i ∈ names) ↔
      ∀ name ∈ names, ∀ digits, digitsOf? name = some digits →
        ∃ n : ℕ, withinLimit n = true ∧ name = documentName n) ∧
    ((∃ ids, trackIds d folder = .ok ids) ↔ ∀ name ∈ names, ∀ digits, digitsOf? name = some digits →
      (∀ c ∈ digits.toList, (Text.decimalValue? c).isSome = true) ∧ digits.length ≤ digitLimit) ∧
    (∀ ids, trackIds d folder = .ok ids → ids.Pairwise (· ≤ ·) ∧ (∀ i ∈ ids, 0 ≤ i) ∧
      ∀ i, 0 ≤ i → documentName i ∈ names → i ∈ ids) ∧
    ∀ i, 0 ≤ i → (d.hasNode (folder.child (documentName i)) = .ok true ↔ documentName i ∈ names ∧
      (documentName i).utf8ByteSize ≤ Disk.longestName ∧
        Disk.Accepts (folder.child (documentName i))) := by
  intro names
  have hsorted (ids : List ℤ) : trackIds d folder = .ok ids ↔ Readable names ∧
      ids = (names.filterMap trackOf?).mergeSort fun a b => decide (a ≤ b) :=
    trackIds_eq_ok hlist
  refine ⟨?_, ?_, fun ids hids => ?_, fun i hi => ?_⟩
  · constructor
    · rintro ⟨ids, hids, hlt, hmem⟩
      obtain ⟨hread, rfl⟩ := (hsorted ids).1 hids
      simp only [List.mem_mergeSort] at hmem
      exact (nodup_and_mem_iff hnames hread).1 ⟨pairwise_lt_sorted_iff.1 hlt, hmem⟩
    · intro hplain
      have hread : Readable names := fun name hname digits hdigits => by
        obtain ⟨n, hlimit, rfl⟩ := hplain name hname digits hdigits
        obtain rfl := Option.some.inj ((digitsOf?_documentName n).symm.trans hdigits)
        rw [Number.readWhole?_toString, if_pos hlimit, Option.isSome_some]
      obtain ⟨hnodup, hmem⟩ := (nodup_and_mem_iff hnames hread).2 hplain
      exact ⟨_, (hsorted _).2 ⟨hread, rfl⟩, pairwise_lt_sorted_iff.2 hnodup,
        fun i => List.mem_mergeSort.trans (hmem i)⟩
  · rw [← readable_iff]
    exact ⟨fun ⟨ids, hids⟩ => ((hsorted ids).1 hids).1,
      fun hread => ⟨_, (hsorted _).2 ⟨hread, rfl⟩⟩⟩
  · obtain ⟨hread, rfl⟩ := (hsorted ids).1 hids
    simp only [List.mem_mergeSort]
    refine ⟨List.pairwise_mergeSort' (· ≤ ·) _, fun i hi => ?_, fun i hi hdocument => ?_⟩
    · obtain ⟨name, -, hv⟩ := List.mem_filterMap.1 hi
      exact nonneg_of_trackOf? hv
    · obtain ⟨n, rfl⟩ := Int.eq_ofNat_of_zero_le hi
      exact List.mem_filterMap.2 ⟨_, hdocument, (trackOf?_of_mem hread hdocument).2⟩
  · obtain ⟨n, rfl⟩ := Int.eq_ofNat_of_zero_le hi
    obtain ⟨hpath, hup⟩ := documentName_component n
    exact Disk.hasNode_child_eq_true hlist hpath hup

def shelf (names : List String) : Disk where
  root := .folder (names.map fun name => (name, .file ByteArray.empty))
  here := []

theorem trackIds_lists_documents_shelf :
    let names := ["12.json", "7.json", "index.json", "7.txt"]
    (shelf names).list ⟨"", []⟩ = .ok (names.map fun name => (name, .file ByteArray.empty)) ∧
      names.Nodup ∧ (∃ ids, trackIds (shelf names) ⟨"", []⟩ = .ok ids ∧ ids.Pairwise (· < ·) ∧
        7 ∈ ids ∧ 12 ∈ ids ∧ 13 ∉ ids) ∧
      (shelf names).hasNode (Path.child ⟨"", []⟩ (documentName 7)) = .ok true := by
  intro names
  obtain ⟨hiff, -, -, hthere⟩ :=
    trackIds_lists_documents_iff (shelf names) ⟨"", []⟩ _ rfl (by decide)
  obtain ⟨ids, hids, hlt, hmem⟩ := hiff.2 <| by
    rintro name hname digits hdigits
    have hplain : ∀ name ∈ names, digitsOf? name = none ∨
        name = documentName (12 : ℕ) ∨ name = documentName (7 : ℕ) := by
      decide +kernel
    rcases hplain name hname with hnone | rfl | rfl
    · rw [hnone] at hdigits
      cases hdigits
    · exact ⟨12, by decide +kernel, rfl⟩
    · exact ⟨7, by decide +kernel, rfl⟩
  refine ⟨rfl, by decide, ⟨ids, hids, hlt, (hmem 7).2 ?_, (hmem 12).2 ?_, mt (hmem 13).1 ?_⟩,
    (hthere 7 (by decide)).2 ?_⟩ <;> decide +kernel

/-- Superscripts count as digits and write no number, and zeros in front are not in the name that is
looked up. -/
theorem trackIds_misreads_names :
    trackIds (shelf ["².json"]) ⟨"", []⟩ = .error .badInteger ∧
      trackIds (shelf ["007.json"]) ⟨"", []⟩ = .ok [7] ∧ documentName 7 ∉ ["007.json"] := by
  decide +kernel

end SoundAtlas.Feature
