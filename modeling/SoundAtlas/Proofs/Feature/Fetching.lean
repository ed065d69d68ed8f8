import Mathlib
import SoundAtlas.Proofs.Chains
import SoundAtlas.Proofs.Engine.Cancellation
import SoundAtlas.Proofs.Json.RoundTrip
import SoundAtlas.Proofs.Storage.ArchiveRoundTrip

/-!
When the features of a track cannot be fetched. Whatever is amiss with a document is reported, and
what cannot be read from it is left out; but three things are not for the source to overlook, and
then the fetch fails, and with it the training that asked for it: a path that is too long, a
document that is nested too deeply, and a whole number beyond the range of floats.
-/

namespace SoundAtlas

/-! ### Rows of values -/

namespace Tensor

/-- A value whose conversion meets a whole number beyond the range of floats: the value is
rectangular, and all that stands before the number is converted. -/
def Overflows (v : Json) : Prop :=
  (∃ shape, shapeOf v = some shape ∧ shape.length ≤ maxRank) ∧
    ∃ before n after, leaves v = before ++ .int n :: after ∧
      (∀ w ∈ before, ∃ x, floatOfJson w = .ok x) ∧ Number.floatOfInt? n = none

lemma floatOfJson_eq_tooLarge {v : Json} :
    floatOfJson v = .error .tooLarge ↔ ∃ n, v = .int n ∧ Number.floatOfInt? n = none := by
  constructor
  · intro h
    unfold floatOfJson at h
    split at h <;> try simp at h
    · rename_i n
      refine ⟨n, rfl, ?_⟩
      split at h
      · simp at h
      · assumption
    · split at h <;> simp at h
  · rintro ⟨n, rfl, hn⟩
    rw [floatOfJson, hn]

/-- **A whole number is too large for a conversion exactly when it is met before
anything amiss.** -/
lemma ofJson_eq_tooLarge {v : Json} : ofJson v = .error .tooLarge ↔ Overflows v := by
  unfold ofJson Overflows
  cases hs : shapeOf v with
  | none => simp
  | some shape =>
    by_cases hr : maxRank < shape.length
    · simp [hr]
    · dsimp only
      rw [if_neg hr]
      have hentries (xs : List Float) : ofEntries shape xs ≠ .error .tooLarge := by
        unfold ofEntries
        split <;> simp
      have hleaves : (leaves v).mapM floatOfJson = .error .tooLarge ↔
          ∃ before n after, leaves v = before ++ .int n :: after ∧
            (∀ w ∈ before, ∃ x, floatOfJson w = .ok x) ∧ Number.floatOfInt? n = none := by
        rw [mapM_eq_error]
        constructor
        · rintro ⟨before, w, after, hw, hbefore, hlarge⟩
          obtain ⟨n, rfl, hn⟩ := floatOfJson_eq_tooLarge.1 hlarge
          exact ⟨before, n, after, hw, hbefore, hn⟩
        · rintro ⟨before, n, after, hw, hbefore, hn⟩
          exact ⟨before, _, after, hw, hbefore, floatOfJson_eq_tooLarge.2 ⟨n, rfl, hn⟩⟩
      rw [← hleaves]
      cases hm : (leaves v).mapM floatOfJson with
      | error e => simp [Nat.le_of_not_lt hr]
      | ok xs => simp [hentries]

end Tensor

namespace Feature

variable {depth : ℕ} {folder : Path} {d : Disk} {track : Int} {name : FeatureName}
  {names : List FeatureName} {document : Json} {f : Fault}

/-! ### One document -/

lemma findFeature_eq_fault (track : Int) : findFeature track document name = .fault f ↔
    f = .tooLarge ∧ ∃ v, valueOf name document = some v ∧ Tensor.Overflows v := by
  have hnull : ¬ Tensor.Overflows .null := by
    rintro ⟨-, before, n, after, h, -⟩
    have hn : Json.int n ∈ Tensor.leaves .null := by simp [h]
    simp [Tensor.leaves] at hn
  unfold findFeature
  split
  · simp [*]
  · simp [*]
  · rename_i v _ hv
    simp only [hv, Option.some.injEq, exists_eq_left', ← Tensor.ofJson_eq_tooLarge]
    split
    · simp [*, eq_comm]
    · rename_i e he h
      simp only [h, Except.error.injEq, reduceCtorEq, false_iff, not_and]
      exact fun _ => he
    · rename_i t h
      split <;> simp [h]

/-- **The features of a document** cannot be found exactly when one of them is too large. -/
lemma findFeatures_eq_error {vs : Values} :
    (findFeatures track document names vs).result = .error f ↔
      f = .tooLarge ∧ ∃ name ∈ names, ∃ v, valueOf name document = some v ∧ Tensor.Overflows v := by
  induction names generalizing vs with
  | nil => simp [findFeatures]
  | cons name names ih =>
    rw [findFeatures]
    simp only [List.exists_mem_cons_iff, and_or_left]
    cases hfind : findFeature track document name with
    | absent | found xs | warning w =>
      have hsound : ¬ ∃ v, valueOf name document = some v ∧ Tensor.Overflows v := fun h => by
        have := (findFeature_eq_fault track).2 ⟨rfl, h⟩
        rw [hfind] at this
        cases this
      simp only [hsound, and_false, false_or]
      exact ih
    | fault f' =>
      obtain ⟨rfl, h⟩ := (findFeature_eq_fault track).1 hfind
      simp only [h, and_true, Except.error.injEq, eq_comm (b := f)]
      tauto

/-! ### One fetch -/

/-- Why the features of a track cannot be fetched from a folder of documents. -/
inductive Fails (depth : ℕ) (folder : Path) (d : Disk) (track : Int) (names : List FeatureName) :
    Fault → Prop where
  /-- The path of the document is too long. -/
  | path : d.hasNode (folder.child (documentName track)) = .error .nameTooLong →
      Fails depth folder d track names (.disk .nameTooLong)
  /-- The document is nested too deeply. -/
  | nesting {content : ByteArray} {text : String} :
      d.read (folder.child (documentName track)) = .ok content →
      String.fromUTF8? content = some text → Json.parse depth text = .error .tooDeep →
      Fails depth folder d track names .tooDeep
  /-- A value that is asked for has a whole number that is too large. -/
  | number {content : ByteArray} {text : String} {document v : Json} {name : FeatureName} :
      d.read (folder.child (documentName track)) = .ok content →
      String.fromUTF8? content = some text → Json.parse depth text = .ok document → name ∈ names →
      valueOf name document = some v → Tensor.Overflows v →
        Fails depth folder d track names .tooLarge

lemma readDocument_eq_error {content : ByteArray} : readDocument depth content = .error f ↔
    f = .tooDeep ∧ ∃ text, String.fromUTF8? content = some text ∧
      Json.parse depth text = .error .tooDeep := by
  unfold readDocument
  split
  · simp [*]
  · rename_i text htext
    simp only [htext, Option.some.injEq, exists_eq_left']
    split
    · simp [*]
    · simp [*, eq_comm]
    · rename_i e he h
      simp only [h, Except.error.injEq, reduceCtorEq, false_iff, not_and]
      exact fun _ => he

lemma readDocument_eq_some {content : ByteArray} :
    readDocument depth content = .ok (some document) ↔
    ∃ text, String.fromUTF8? content = some text ∧ Json.parse depth text = .ok document := by
  unfold readDocument
  split
  · simp [*]
  · rename_i text htext
    simp only [htext, Option.some.injEq, exists_eq_left']
    split <;> simp [*]

/-- Only a path that is too long keeps the disk from saying whether anything is there. -/
lemma hasNode_eq_error {p : Path} {e : Disk.Error} (h : d.hasNode p = .error e) :
    e = .nameTooLong := by
  unfold Disk.hasNode Disk.present at h
  split at h <;> simp_all

lemma hasNode_of_read {p : Path} {content : ByteArray} (h : d.read p = .ok content) :
    d.hasNode p = .ok true := by
  unfold Disk.read Disk.content at h
  unfold Disk.hasNode Disk.present
  split at h <;> simp_all

/-- **A fetch fails for these reasons and no others.** -/
lemma fetch_eq_error : ((Source.ofFolder depth folder).fetch d track names).result = .error f ↔
    Fails depth folder d track names f := by
  unfold Source.ofFolder fetchDocument
  dsimp only
  constructor
  · intro h
    split at h
    · rename_i e he
      obtain rfl := hasNode_eq_error he
      obtain rfl := Except.error.inj h
      exact .path he
    · simp at h
    · split at h
      · simp at h
      · rename_i content hcontent
        split at h
        · rename_i e he
          obtain rfl := Except.error.inj h
          obtain ⟨rfl, text, htext, hdeep⟩ := readDocument_eq_error.1 he
          exact .nesting hcontent htext hdeep
        · simp at h
        · rename_i v hv
          obtain ⟨rfl, name, hname, w, hw, hlarge⟩ := findFeatures_eq_error.1 h
          obtain ⟨text, htext, hparse⟩ := readDocument_eq_some.1 hv
          exact .number hcontent htext hparse hname hw hlarge
  · intro h
    cases h with
    | path he => simp only [he]
    | nesting hcontent htext hdeep =>
      simp only [hasNode_of_read hcontent, hcontent, readDocument_eq_error.2 ⟨rfl, _, htext, hdeep⟩]
    | number hcontent htext hparse hname hv hlarge =>
      simp only [hasNode_of_read hcontent, hcontent, readDocument_eq_some.2 ⟨_, htext, hparse⟩]
      exact findFeatures_eq_error.2 ⟨rfl, _, hname, _, hv, hlarge⟩

lemma exists_inputVector {r : Registry} (values : Values)
    (hknown : ∀ name ∈ names, ∃ n, r.dimensions name = .ok n) :
    ∃ v, inputVector r values names = .ok v := by
  induction names with
  | nil => exact ⟨_, rfl⟩
  | cons name names ih =>
    obtain ⟨⟨n, hn⟩, hknown⟩ := List.forall_mem_cons.1 hknown
    obtain ⟨v, hv⟩ := ih hknown
    unfold inputVector
    simp only [hn, hv, bind, Except.bind]
    split
    · exact ⟨_, rfl⟩
    · cases v <;> exact ⟨_, rfl⟩

end Feature

/-! ### The samples of a training -/

namespace Engine

open Feature

variable {env : Surroundings} {names : List FeatureName} {s : Session} {tracks : List Int}

/-- Nobody cancels, so a fetch leaves the engine and the disk as they are. -/
lemma fetch_eq (hcalm : ∀ ev, env.cancels ev = false) (names : List FeatureName) (track : Int)
    (s : Session) :
    (fetch env names track s).1 =
        (env.source.fetch s.disk track names).result.mapError .source ∧
      (fetch env names track s).2.engine = s.engine ∧ (fetch env names track s).2.disk =
        s.disk := by
  have hmeet (ev : Event) : s.meet env ev = s := by simp [Session.meet, hcalm]
  unfold fetch
  rw [hmeet]
  exact ⟨rfl, rfl, rfl⟩

/-- **One fetch that fails ends the collection of the samples**, and nothing else does. -/
lemma collect_fails_iff (hcalm : ∀ ev, env.cancels ev = false) (samples : List Sample)
    (hs : s.isCancelled = false)
    (hknown : ∀ name ∈ names, ∃ n, s.engine.registry.dimensions name = .ok n) :
    (∃ f t, collect env names tracks samples s = (.error f, t)) ↔
      ∃ track ∈ tracks, ∃ f, (env.source.fetch s.disk track names).result = .error f := by
  induction tracks generalizing samples s with
  | nil => simp [collect]
  | cons track tracks ih =>
    obtain ⟨hresult, hengine, hdisk⟩ := fetch_eq hcalm names track s
    -- the next fetch finds the same engine and the same disk
    have hnext (t : Session) (he : t.engine = s.engine) (hd : t.disk = s.disk)
        (samples : List Sample) : (∃ f u, collect env names tracks samples t = (.error f, u)) ↔
          ∃ track ∈ tracks, ∃ f, (env.source.fetch s.disk track names).result = .error f := by
      rw [← hd]
      exact ih samples (by rwa [Session.isCancelled, he]) (by rwa [he])
    rcases hfetch : fetch env names track s with ⟨result, t⟩
    rw [hfetch] at hresult hengine hdisk
    rw [collect, if_neg (by simp [hs]), List.exists_mem_cons_iff, hfetch]
    dsimp only at hresult hengine hdisk
    cases hgot : (env.source.fetch s.disk track names).result with
    | error f =>
      obtain rfl : result = .error (.source f) := by rw [hresult, hgot]; rfl
      exact iff_of_true ⟨_, _, rfl⟩ (.inl ⟨f, rfl⟩)
    | ok values =>
      obtain rfl : result = .ok values := by rw [hresult, hgot]; rfl
      simp only [reduceCtorEq, exists_false, false_or]
      rcases values with _ | _ | ⟨value, values⟩
      · exact hnext t hengine hdisk samples
      · exact hnext t hengine hdisk samples
      · obtain ⟨v, hv⟩ := exists_inputVector (value :: values) (hengine ▸ hknown)
        simp only [hv]
        cases v with
        | error m => exact hnext (t.warn [.mismatch m]) hengine hdisk samples
        | ok v => exact hnext t hengine hdisk _

/-- **When the features of a track cannot be fetched from a folder of documents.** A fetch fails for
one of three reasons, and otherwise answers with the values that it has found or with none; and if
nobody cancels, a training on known features ends without samples exactly when the fetch of some
track fails. -/
theorem fetch_fails_iff (depth : ℕ) (folder : Path) (names : List FeatureName) :
    (∀ d track f, ((Source.ofFolder depth folder).fetch d track names).result = .error f ↔
      Fails depth folder d track names f) ∧
    ∀ (env : Surroundings) (s : Session) (tracks : List Int),
      env.source = .ofFolder depth folder → env.listed.trackIds = .ok tracks →
      (∀ ev, env.cancels ev = false) → s.isCancelled = false →
      (∀ name ∈ names, ∃ n, s.engine.registry.dimensions name = .ok n) →
      ((∃ f t, collectSamples env names s = (.error f, t)) ↔
        ∃ track ∈ tracks, ∃ f, Fails depth folder s.disk track names f) := by
  refine ⟨fun d track f => fetch_eq_error, ?_⟩
  intro env s tracks hsource htracks hcalm hs hknown
  have hmeet : s.meet env .listing = s := by simp [Session.meet, hcalm]
  simp only [collectSamples, hmeet, htracks, collect_fails_iff hcalm [] hs hknown, hsource]
  exact exists_congr fun track => and_congr_right fun _ => exists_congr fun f => fetch_eq_error

def vastNumber : Int := ((10 ^ 400 : Nat) : Int)

def vastDocument : Json :=
  .object [("rhythm", .object [("bpm", .int vastNumber)])]

lemma parse_vastDocument : Json.parse 985 vastDocument.print = .ok vastDocument := by
  have hwithin : Number.withinLimit vastNumber = true := by decide +kernel
  have hlegible : Json.Legible (983 + 1 + 1) vastDocument :=
    .object (by simp) (List.forall_mem_singleton.2
      (.object (by simp) (List.forall_mem_singleton.2 (.int hwithin))))
  exact Json.parse_render Json.Layout.spaced_line hlegible

def hereFolder : Path := ⟨"", []⟩

def vastDisk : Disk where
  root := .folder [("work", .folder [("5.json", .file vastDocument.print.toUTF8)])]
  here := ["work"]

lemma read_vastDisk :
    vastDisk.read (hereFolder.child (documentName 5)) = .ok vastDocument.print.toUTF8 := by
  have hpath : hereFolder.child (documentName 5) = ⟨"", ["5.json"]⟩ := by decide +kernel
  have hplace : vastDisk.place ⟨"", ["5.json"]⟩ = .ok ["work", "5.json"] := by rfl
  have hat : vastDisk.at? ["work", "5.json"] = some (.file vastDocument.print.toUTF8) := by rfl
  simp only [hpath, Disk.read, Disk.node, hplace, bind, Except.bind, hat]
  rfl

lemma fails_vast : Fails 985 hereFolder vastDisk 5 [.chars "rhythm.bpm"] .tooLarge := by
  have hvalue : valueOf (.chars "rhythm.bpm") vastDocument = some (.int vastNumber) := rfl
  have hlarge : Number.floatOfInt? vastNumber = none := by decide +kernel
  refine .number read_vastDisk (fromUTF8?_toUTF8 _) parse_vastDocument (List.mem_singleton_self _)
    hvalue ⟨⟨[], rfl, Nat.zero_le _⟩, [], vastNumber, [], rfl, nofun, hlarge⟩

/-- The fetch of this document fails, though it can be read. -/
theorem fetch_vastDisk :
    Json.parse 985 vastDocument.print = .ok vastDocument ∧
      vastDisk.read (hereFolder.child (documentName 5)) = .ok vastDocument.print.toUTF8 ∧
      ((Source.ofFolder 985 hereFolder).fetch vastDisk 5 [.chars "rhythm.bpm"]).result =
        .error .tooLarge :=
  ⟨parse_vastDocument, read_vastDisk, fetch_eq_error.2 fails_vast⟩

def vastSurroundings : Surroundings :=
  { bareSurroundings with
    listed := { bareSurroundings.listed with trackIds := .ok [5] }
    source := .ofFolder 985 hereFolder }

theorem collectSamples_vast :
    let s := Session.start { bareEngine with registry := .standard } vastDisk
    ∃ f t, collectSamples vastSurroundings [.chars "rhythm.bpm"] s = (.error f, t) := by
  intro s
  have hknown : ∀ name ∈ [Json.Text.chars "rhythm.bpm"],
      ∃ n, s.engine.registry.dimensions name = .ok n := by
    rw [List.forall_mem_singleton]
    exact ⟨1, by decide +kernel⟩
  refine ((fetch_fails_iff 985 hereFolder [.chars "rhythm.bpm"]).2 vastSurroundings s [5] rfl rfl
    (fun _ => rfl) rfl hknown).2 ?_
  exact ⟨5, List.mem_singleton_self 5, _, fails_vast⟩

end Engine

end SoundAtlas
