import SoundAtlas.Cache.Version
import SoundAtlas.Json.Access
import SoundAtlas.Json.Parser
import SoundAtlas.Storage.Disk
import SoundAtlas.Storage.Machine

/-!
Loading a version of a cached model. Nothing in its files is trusted: every file is compared with
its checksum, and every value is checked before it is used. What is found under a name in the
folder of the version is given as a function, as the checksums may name any file.
-/

namespace SoundAtlas.Cache

abbrev Look := String → Except Disk.Error Node

/-- What is wrong with a version whose files can be read. -/
inductive Violation where
  | noChecksums
  | noEntry (name : String)
  | missingFile (name : Json.Text)
  | size (name : Json.Text) (expected actual : Int)
  | digest (name expected : Json.Text) (actual : String)
  | fields (missing : List String)
  | schema (shown : Json.Text)
  | references (shape : List Nat) (cells dimensions : Int)
  | weights (shape : List Nat) (dimensions : Int)
  | outside (track : Int) (p : Position) (width height : Int)
deriving DecidableEq, Repr

/-- The wording of a violation. Names and values out of a document stand in it as they are. -/
def Violation.message : Violation → Json.Text
  | .noChecksums => .chars s!"Missing {checksumFile}"
  | .noEntry name => .chars s!"Checksums missing entry for {name}"
  | .missingFile name => .chars "Missing file referenced by checksums: " ++ name
  | .size name expected actual =>
    .chars "File size mismatch for " ++ name ++ .chars s!": expected {expected}, got {actual}"
  | .digest name expected actual =>
    .chars "SHA256 mismatch for " ++ name ++ .chars ": expected " ++ expected ++
      .chars s!", got {actual}"
  | .fields missing => .chars ("Manifest missing required fields: " ++ ", ".intercalate missing)
  | .schema shown =>
    .chars "Unsupported schema_version=" ++ shown ++ .chars s!". Expected {schemaVersion}."
  | .references shape cells n =>
    .chars (s!"ref_vectors shape {Tensor.shapeText shape} " ++
      s!"does not match manifest ({cells}, {n})")
  | .weights shape n =>
    .chars s!"data_weights shape {Tensor.shapeText shape} does not match dimensions {n}"
  | .outside track p w h => .chars s!"Track {track} position {p.text} outside {w}x{h} grid"

inductive LoadError where
  | invalid (v : Violation)
  | disk (e : Disk.Error)
  /-- The bytes of a file are no text. -/
  | undecodable
  | syntaxError (e : Json.SyntaxError)
  | shape (e : Json.ReadError)
  | archive (e : Archive.Error)
  | network (e : Network.Error)
  | model (e : Model.Error)
  /-- A number in a message has too many digits. -/
  | unprintable
deriving DecidableEq, Repr

def LoadError.message? : LoadError → Option Json.Text
  | .invalid v => some v.message
  | .network e => e.message?.map .chars
  | .model e => e.message?.map .chars
  | _ => none

def readDocument (machine : Machine) (found : Except Disk.Error Node) : Except LoadError Json :=
  match Disk.content found with
  | .error e => .error (.disk e)
  | .ok bytes =>
    match String.fromUTF8? bytes with
    | none => .error .undecodable
    | some s => (Json.parse machine.readDepth s).mapError .syntaxError

def shaped {α : Type} (x : Except Json.ReadError α) : Except LoadError α :=
  x.mapError .shape

/-! ### Checksums -/

/-- Whether a list of characters stands somewhere in another. -/
def occursIn (cs : List Char) : List Char → Bool
  | [] => cs.isEmpty
  | d :: ds => cs.isPrefixOf (d :: ds) || occursIn cs ds

/-- Whether a value holds a name: as a key, as an item, or as a part of a text. -/
def holds (name : String) : Json → Except Json.ReadError Bool
  | .obj ms => .ok (Json.find? (.chars name) ms).isSome
  | .arr vs => .ok (vs.any fun v =>
      match v with
      | .str s => decide (s = .chars name)
      | _ => false)
  | .str (.chars s) => .ok (occursIn name.toList s.toList)
  | .str (.broken ..) => .ok false
  | _ => .error .noElements

def requiredFiles : List String :=
  [manifestFile, networkFile, positionsFile]

/-- Fails unless the checksums list a file. -/
def requireEntry (checksums : Json) (name : String) : Except LoadError Unit := do
  if ← shaped (holds name checksums) then return () else throw (.invalid (.noEntry name))

/-- What is found under a key; a key with a lone surrogate names nothing. -/
def lookUp (look : Look) : Json.Text → Except Disk.Error Node
  | .chars name => look name
  | .broken .. => .error .badName

/-- Compares a file with its entry: there is such a file, of the size and the digest listed. -/
def checkEntry (look : Look) (entry : Json.Text × Json) : Except LoadError Unit := do
  let found := lookUp look entry.1
  let name := entry.1
  if !(← (Disk.present found).mapError .disk) then throw (.invalid (.missingFile name))
  let expected ← shaped (entry.2.member "size")
  let expected ← shaped expected.toInt
  let actual ← (Disk.size found).mapError LoadError.disk
  if (actual : Int) ≠ expected then throw (.invalid (.size name expected actual))
  let digest ← shaped (entry.2.member "sha256")
  let bytes ← (Disk.content found).mapError LoadError.disk
  if .chars (Digest.text bytes) ≠ digest.plain then
    throw (.invalid (.digest name digest.plain (Digest.text bytes)))

def checkFiles (look : Look) (checksums : Json) : Except LoadError Unit := do
  requiredFiles.forM (requireEntry checksums)
  match checksums with
  | .obj ms => ms.forM (checkEntry look)
  | _ => throw (.shape .notObject)

/-! ### The manifest -/

/-- The names among what a manifest goes through. -/
def fieldNames (v : Json) : Except Json.ReadError (List Json.Text) := do
  let items ← v.elements
  if items.all Json.isKey then
    return items.filterMap fun item =>
      match item with
      | .str s => some s
      | _ => none
  else throw .noElements

/-- The required fields that are not among the given names, in order. -/
def missingFields (names : List Json.Text) : List String :=
  (manifestFields.filter fun f => !names.contains (.chars f)).mergeSort fun a b => decide (a ≤ b)

def isSchemaVersion : Json → Bool
  | .int n => n == schemaVersion
  | .bool b => b
  | .float x => x == 1.0
  | _ => false

structure Sizes where
  width : Int
  height : Int
  dimensions : Int

/-- The sizes that a manifest gives, if it has all fields and the schema version. -/
def readManifest (v : Json) : Except LoadError Sizes := do
  let missing := missingFields (← shaped (fieldNames v))
  if missing ≠ [] then throw (.invalid (.fields missing))
  let schema ← shaped (v.member "schema_version")
  if !isSchemaVersion schema then throw (.invalid (.schema schema.plain))
  let width ← shaped (v.member "width")
  let width ← shaped width.toInt
  let height ← shaped (v.member "height")
  let height ← shaped height.toInt
  let dimensions ← shaped (v.member "dimensions")
  let dimensions ← shaped dimensions.toInt
  return ⟨width, height, dimensions⟩

/-! ### The arrays -/

/-- The reference vectors and the weights of an archive in a file. -/
def readArrays (archives : Archive.Format) (found : Except Disk.Error Node) :
    Except LoadError (Tensor UInt64 × Tensor UInt64) := do
  let bytes ← (Disk.content found).mapError LoadError.disk
  let archive ← (archives.read bytes).mapError LoadError.archive
  let references ← (archive.get referencesName).mapError LoadError.archive
  let weights ← (archive.get weightsName).mapError LoadError.archive
  return (references, weights)

def shapeOf (t : Tensor UInt64) : List Int :=
  t.shape.map Int.ofNat

def checkArrays (sizes : Sizes) (references weights : Tensor UInt64) : Except LoadError Unit := do
  let cells := sizes.width * sizes.height
  if shapeOf references ≠ [cells, sizes.dimensions] then
    if Number.withinLimit cells then
      throw (.invalid (.references references.shape cells sizes.dimensions))
    else throw .unprintable
  if shapeOf weights ≠ [sizes.dimensions] then
    throw (.invalid (.weights weights.shape sizes.dimensions))

/-! ### The positions -/

/-- A row: a track with its positions, which are read first. -/
def readTrackRow (v : Json) : Except Json.ReadError (Int × PositionSet) := do
  let positions ← Model.readPositions (← v.member "positions")
  let track ← v.member "track_id"
  let track ← track.toInt
  return (track, positions)

def readTrackRows (v : Json) : Except Json.ReadError (List (Int × PositionSet)) := do
  (← v.elements).mapM readTrackRow

/-- The positions that rows give; the last row of a track counts. -/
def positionsOfRows (rows : List (Int × PositionSet)) : TrackPositions :=
  Std.ExtTreeMap.ofList rows

def Sizes.contain (s : Sizes) (p : Position) : Bool :=
  (decide (0 ≤ p.x) && decide (p.x < s.width)) && (decide (0 ≤ p.y) && decide (p.y < s.height))

def firstOutside (s : Sizes) (tracks : List Int) (ps : TrackPositions) : Option (Int × Position) :=
  tracks.findSome? fun track =>
    ((ps.getD track ∅).toList.find? fun p => !s.contain p).map fun p => (track, p)

/-! ### Loading -/

/-- Fails unless there are checksums, and checks the files against them. -/
def checkVersion (machine : Machine) (look : Look) : Except LoadError Unit := do
  let found := look checksumFile
  if !(← (Disk.present found).mapError .disk) then throw (.invalid .noChecksums)
  checkFiles look (← readDocument machine found)

def load (machine : Machine) (look : Look) : Except LoadError Model := do
  checkVersion machine look
  let sizes ← readManifest (← readDocument machine (look manifestFile))
  let (references, weights) ← readArrays machine.archives (look networkFile)
  checkArrays sizes references weights
  let rows ← shaped (readTrackRows (← readDocument machine (look positionsFile)))
  let positions := positionsOfRows rows
  match firstOutside sizes (rows.map (·.1)) positions with
  | some (track, p) => throw (.invalid (.outside track p sizes.width sizes.height))
  | none =>
    let network ← (Network.ofArrays sizes.width sizes.height (.ok references)
      (.ok weights)).mapError LoadError.network
    (Model.make network positions).mapError .model

end SoundAtlas.Cache
