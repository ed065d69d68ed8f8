import SoundAtlas.Feature.Layout
import SoundAtlas.Json.Access
import SoundAtlas.Json.Parser
import SoundAtlas.Numeric.Tensor
import SoundAtlas.Storage.Disk
import SoundAtlas.Text.Line

/-!
Sources of features: where the values of a track come from. A folder of documents has one document
for each track, `<track>.json`, and the name of a feature is the path to its value in it.
-/

namespace SoundAtlas.Feature

inductive Warning where
  | unreadable (track : Int)
  | notNumeric (name : FeatureName) (track : Int)
  | notFinite (name : FeatureName) (track : Int)
deriving DecidableEq, Repr

def Warning.text : Warning → Json.Text
  | .unreadable track => .chars s!"Could not read features for track {track}"
  | .notNumeric name track =>
    .chars "Non-numeric value for '" ++ name ++ .chars s!"' in track {track}"
  | .notFinite name track => .chars "Non-finite value for '" ++ name ++ .chars
      s!"' in track {track}"

inductive Fault where
  /-- A whole number in a document is beyond the range of floats. -/
  | tooLarge
  /-- A document is nested too deeply to be read. -/
  | tooDeep
  | disk (e : Disk.Error)
deriving DecidableEq, Repr

structure Fetched where
  result : Except Fault (Option Values)
  warnings : List Warning

/-- A source of features. The documents are those on the disk at the time of the request. -/
structure Source where
  fetch : Disk → Int → List FeatureName → Fetched

def Values.set (name : FeatureName) (xs : List Float) : Values → Values
  | [] => [(name, xs)]
  | v :: vs => if v.1 = name then (name, xs) :: vs else v :: Values.set name xs vs

def Values.nonempty? (vs : Values) : Option Values :=
  if vs.isEmpty then none else some vs

/-! ### Documents -/

def resolve : List Json.Text → Json → Option Json
  | [], v => some v
  | key :: keys, .obj ms => (Json.find? key ms).bind (resolve keys)
  | _ :: _, _ => none

def valueOf (name : FeatureName) (document : Json) : Option Json :=
  resolve ((Text.split '.'.toNat name.codes).map Json.Text.ofCodes) document

/-- The values that are found for a feature, if any, or why there are none. -/
inductive Finding where
  | absent
  | found (xs : List Float)
  | warning (w : Warning)
  | fault (f : Fault)

def findFeature (track : Int) (document : Json) (name : FeatureName) : Finding :=
  match valueOf name document with
  | none => .absent
  | some .null => .absent
  | some v =>
    match Tensor.ofJson v with
    | .error .tooLarge => .fault .tooLarge
    | .error _ => .warning (.notNumeric name track)
    | .ok t => if t.entries.all Float.isFinite then .found t.entries
      else .warning (.notFinite name track)

/-- Looks features up in the document of a track, one after the other; a feature without values is
left out. -/
def findFeatures (track : Int) (document : Json) : List FeatureName → Values → Fetched
  | [], vs => ⟨.ok vs.nonempty?, []⟩
  | name :: names, vs =>
    match findFeature track document name with
    | .absent => findFeatures track document names vs
    | .found xs => findFeatures track document names (vs.set name xs)
    | .warning w =>
      let rest := findFeatures track document names vs
      { rest with warnings := w :: rest.warnings }
    | .fault f => ⟨.error f, []⟩

/-- The document that a file holds, if it is one. That a document is nested too deeply is not for
the source to overlook. -/
def readDocument (depth : Nat) (content : ByteArray) : Except Fault (Option Json) :=
  match String.fromUTF8? content with
  | none => .ok none
  | some s =>
    match Json.parse depth s with
    | .ok v => .ok (some v)
    | .error .tooDeep => .error .tooDeep
    | .error _ => .ok none

/-! ### Folders of documents -/

def documentName (track : Int) : String :=
  toString track ++ ".json"

def fetchDocument (depth : Nat) (folder : Path) (d : Disk) (track : Int)
    (names : List FeatureName) : Fetched :=
  let path := folder.child (documentName track)
  match d.hasNode path with
  | .error e => ⟨.error (.disk e), []⟩
  | .ok false => ⟨.ok none, []⟩
  | .ok true =>
    match d.read path with
    | .error _ => ⟨.ok none, [.unreadable track]⟩
    | .ok content =>
      match readDocument depth content with
      | .error e => ⟨.error e, []⟩
      | .ok none => ⟨.ok none, [.unreadable track]⟩
      | .ok (some v) => findFeatures track v names []

/-- The source of a folder of documents, which may be nested to the given depth. -/
def Source.ofFolder (depth : Nat) (folder : Path) : Source :=
  ⟨fetchDocument depth folder⟩

def digitsOf? (name : String) : Option String :=
  let stem := String.ofList (name.toList.take (name.length - 5))
  if name.toList.drop (name.length - 5) = ".json".toList ∧ stem ≠ "" ∧
      stem.toList.all Text.isDigit then
    some stem
  else none

/-- The tracks that have a document in a folder, in ascending order. Fails at digits that write no
number. -/
def trackIds (d : Disk) (folder : Path) : Except Json.ReadError (List Int) :=
  match d.list folder with
  | .error _ => .ok []
  | .ok entries => do
    let ids ← (entries.filterMap fun e => digitsOf? e.1).mapM fun digits =>
      match Number.readWhole? digits with
      | some n => .ok n
      | none => .error .badInteger
    return ids.mergeSort fun a b => decide (a ≤ b)

/-! ### Tables -/

/-- The source of values that are at hand: those of the requested features that a track has. -/
def Source.ofTable (table : List (Int × Values)) : Source where
  fetch _ track names :=
    match table.lookup track with
    | none => ⟨.ok none, []⟩
    | some values =>
      let found := names.foldl (fun (vs : Values) name =>
        match values.lookup name with
        | some xs => vs.set name xs
        | none => vs) []
      ⟨.ok found.nonempty?, []⟩

end SoundAtlas.Feature
