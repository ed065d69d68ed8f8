import SoundAtlas.Json.Printer
import SoundAtlas.Model.Basic
import SoundAtlas.Storage.Archive
import SoundAtlas.Storage.Digest

/-!
The files of one version of a cached model: a manifest with the sizes, an archive with the reference
vectors and the weights, the positions of the tracks, and the checksums of these three.
-/

namespace SoundAtlas.Cache

def manifestFile : String := "manifest.json"

def networkFile : String := "network.npz"

def positionsFile : String := "track_positions.json"

def checksumFile : String := "checksums.json"

def referencesName : String := "ref_vectors"

def weightsName : String := "data_weights"

def schemaVersion : Int := 1

def manifestFields : List String :=
  ["schema_version", "width", "height", "dimensions", "track_count", "created_at_utc"]

def manifest (m : Model) (time : String) : Json :=
  Json.object
    [("schema_version", .int schemaVersion),
     ("width", .int m.network.grid.width),
     ("height", .int m.network.grid.height),
     ("dimensions", .int m.network.dimensions),
     ("track_count", .int m.positions.size),
     ("created_at_utc", .string time)]

def positionJson (p : Position) : Json :=
  .arr [.int p.x, .int p.y]

def positionsRow (e : Int × PositionSet) : Json :=
  Json.object [("track_id", .int e.1), ("positions", .arr (e.2.toList.map positionJson))]

/-- The rows of all tracks, in ascending order, each with its positions in ascending order. -/
def positionsRows (ps : TrackPositions) : List Json :=
  ps.toList.map positionsRow

def referenceTensor (n : Network) : Tensor UInt64 where
  shape := [n.grid.size, n.dimensions]
  entries := n.references.toList.flatMap Vector.toList
  length_entries := by
    simp only [List.length_flatMap, Vector.length_toList, List.map_const', List.sum_replicate_nat,
      List.foldr_cons, List.foldr_nil, Nat.mul_one]

def networkArchive (n : Network) : Archive :=
  [(referencesName, referenceTensor n), (weightsName, Tensor.ofList n.weights.toList)]

structure File where
  name : String
  content : ByteArray

def checksumMember (f : File) : String × Json :=
  (f.name, Json.object
    [("sha256", .string (Digest.text f.content)), ("size", .int f.content.size)])

variable (archives : Archive.Format)

def modelFiles (m : Model) (time : String) : List File :=
  [⟨manifestFile, (manifest m time).printIndented.toUTF8⟩,
   ⟨networkFile, archives.write (networkArchive m.network)⟩,
   ⟨positionsFile, (Json.arr (positionsRows m.positions)).print.toUTF8⟩]

/-- The files of a version: those of the model, and their checksums. -/
def versionFiles (m : Model) (time : String) : List File :=
  let files := modelFiles archives m time
  files ++ [⟨checksumFile, (Json.object (files.map checksumMember)).printIndented.toUTF8⟩]

/-- Whether all whole numbers in the files of a version are within the digit limit. -/
def isWritable (m : Model) (time : String) : Bool :=
  (manifest m time).isWritable && (Json.arr (positionsRows m.positions)).isWritable &&
    (modelFiles archives m time).all fun f => Number.withinLimit f.content.size

end SoundAtlas.Cache
