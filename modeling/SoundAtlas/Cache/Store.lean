import SoundAtlas.Cache.Loading
import SoundAtlas.Number.Decimal
import SoundAtlas.Text.Line
import SoundAtlas.Text.Quoted

/-!
The cache of models: a folder with a folder for each version, and a file that names the version that
counts. A model is written to a folder of its own, under a name that nobody reads, and then
published by moving two names, so that a reader meets either the old or the new model.
-/

namespace SoundAtlas

structure ModelCache where
  folder : Path
  machine : Machine

namespace ModelCache

open Cache

def pointerFile : String := "CURRENT"

def versionStart : String := "model-"

inductive Warning where
  | malformedPointer (pointer : String) (name : String)
  | unusable (folder : String)
  | noManifest
deriving DecidableEq, Repr

def Warning.text : Warning → String
  | .malformedPointer pointer name =>
    s!"Ignoring malformed cache pointer {pointer}: " ++ Text.quotedString name
  | .unusable folder => s!"Ignoring unusable model cache in {folder}"
  | .noManifest => "Could not read cache manifest"

inductive Error where
  /-- The pointer is no text. -/
  | pointer
  | load (e : LoadError)
  /-- A file is no text, or holds a number that is too long. -/
  | manifest (e : LoadError)
  | disk (e : Disk.Error)
  /-- A number has too many digits to be written. -/
  | unwritable
deriving DecidableEq, Repr

def Error.message? : Error → Option Json.Text
  | .load e | .manifest e => e.message?
  | .pointer | .disk _ | .unwritable => none

/-! ### The current version -/

/-- Whether a name is that of a version: it begins like one and is no path. -/
def isVersionName (name : String) : Bool :=
  versionStart.toList.isPrefixOf name.toList && !name.toList.contains '/'

def plainLines : List Char → List Char
  | '\r' :: '\n' :: cs => '\n' :: plainLines cs
  | '\r' :: cs => '\n' :: plainLines cs
  | c :: cs => c :: plainLines cs
  | [] => []

def pointerName (s : String) : String :=
  String.ofList (Text.stripChars (plainLines s.toList))

def pointer (c : ModelCache) : Path :=
  c.folder.child pointerFile

/-- The name of the current version, if there is one, with a warning if the pointer is malformed. A
pointer that cannot be read counts as none. -/
def current (c : ModelCache) (d : Disk) : Except Error (Option String) × List Warning :=
  match d.read c.pointer with
  | .error .badName => (.error (.disk .badName), [])
  | .error _ => (.ok none, [])
  | .ok bytes =>
    match String.fromUTF8? bytes with
    | none => (.error .pointer, [])
    | some s =>
      let name := pointerName s
      if isVersionName name then (.ok (some name), [])
      else (.ok none, [.malformedPointer c.pointer.text name])

def version (c : ModelCache) (name : String) : Path :=
  c.folder.child name

/-- What is found under a name in the folder of a version. -/
def look (c : ModelCache) (d : Disk) (version : String) : Look :=
  fun name => d.node ((c.version version).child name)

def hasManifest (c : ModelCache) (d : Disk) (version : String) : Except Error Bool :=
  (Disk.present (c.look d version manifestFile)).mapError .disk

/-- The current version that has a manifest, if there is one. -/
def usable (c : ModelCache) (d : Disk) : Except Error (Option String) × List Warning :=
  match c.current d with
  | (.error e, ws) => (.error e, ws)
  | (.ok none, ws) => (.ok none, ws)
  | (.ok (some name), ws) =>
    match c.hasManifest d name with
    | .error e => (.error e, ws)
    | .ok true => (.ok (some name), ws)
    | .ok false => (.ok none, ws)

def exists? (c : ModelCache) (d : Disk) : Except Error Bool × List Warning :=
  let found := c.usable d
  (found.1.map Option.isSome, found.2)

/-! ### Reading -/

/-- Whether a version that fails to load in this way counts as no version. -/
def isTolerated : LoadError → Bool
  | .shape .notObject => false
  | .shape .infiniteInteger => false
  | .archive .empty => false
  | .syntaxError .tooDeep => false
  | _ => true

def read (c : ModelCache) (d : Disk) : Except Error (Option Model) × List Warning :=
  match c.usable d with
  | (.error e, ws) => (.error e, ws)
  | (.ok none, ws) => (.ok none, ws)
  | (.ok (some name), ws) =>
    match load c.machine (c.look d name) with
    | .ok m => (.ok (some m), ws)
    | .error e =>
      if isTolerated e then (.ok none, ws ++ [.unusable c.folder.text])
      else (.error (.load e), ws)

structure Details where
  version : String
  width : Option Json
  height : Option Json
  dimensions : Option Json
  trackCount : Option Json
  created : Option Json
  /-- The bytes of all its files. -/
  bytes : Nat

structure Info where
  folder : String
  isThere : Bool
  details : Option Details

def field (key : String) : Json → Except LoadError (Option Json)
  | .obj ms => .ok (Json.find? (.chars key) ms)
  | _ => .error (.shape .notObject)

def bytesOf (entries : List (String × Node)) : Nat :=
  entries.foldl (fun n e =>
    match e.2 with
    | .file c => n + c.size
    | .folder _ => n) 0

def details (c : ModelCache) (d : Disk) (name : String) : Except LoadError Details := do
  let v ← readDocument c.machine (c.look d name manifestFile)
  let width ← field "width" v
  let height ← field "height" v
  let dimensions ← field "dimensions" v
  let trackCount ← field "track_count" v
  let created ← field "created_at_utc" v
  let entries ← (d.list (c.version name)).mapError LoadError.disk
  return { version := name, width, height, dimensions, trackCount, created,
           bytes := bytesOf entries }

/-- Whether a manifest that cannot be read in this way is only warned of. -/
def isWarned : LoadError → Bool
  | .disk _ => true
  | .syntaxError .malformed => true
  | _ => false

def info (c : ModelCache) (d : Disk) : Except Error Info × List Warning :=
  match c.usable d with
  | (.error e, ws) => (.error e, ws)
  | (.ok none, ws) => (.ok ⟨c.folder.text, false, none⟩, ws)
  | (.ok (some name), ws) =>
    match c.details d name with
    | .ok details => (.ok ⟨c.folder.text, true, some details⟩, ws)
    | .error e =>
      if isWarned e then (.ok ⟨c.folder.text, true, none⟩, ws ++ [.noManifest])
      else (.error (.manifest e), ws)

/-- The kilobytes of a number of bytes, to two places. -/
def Details.kilobytes (x : Details) : Float :=
  Number.ofDecimal false (Number.roundQuotient (x.bytes * 100) 1024) (-2)

/-- The members of a document that tell about a version; what its manifest does not say is null. -/
def Details.members (x : Details) : List (String × Json) :=
  [("version", .string x.version), ("width", x.width.getD .null),
   ("height", x.height.getD .null), ("dimensions", x.dimensions.getD .null),
   ("track_count", x.trackCount.getD .null), ("created_at_utc", x.created.getD .null),
   ("size_kb", .float x.kilobytes)]

def Info.document (i : Info) : Json :=
  .object ([("cache_dir", .string i.folder), ("exists", .bool i.isThere)] ++
    (i.details.map Details.members).getD [])

/-! ### Writing -/

inductive Effect where
  | makeFolder (p : Path)
  | write (p : Path) (content : ByteArray)
  | move (p q : Path)
  | removeFolder (p : Path)

/-- The disk after a change. A folder that cannot be removed stays. -/
def Effect.apply : Effect → Disk → Except Disk.Error Disk
  | .makeFolder p, d => d.makeFolder p
  | .write p content, d => d.write p content
  | .move p q, d => d.move p q
  | .removeFolder p, d => .ok (d.removeFolder p).2

def applyAll (effects : List Effect) (d : Disk) : Except Disk.Error Disk :=
  effects.foldlM (fun d e => e.apply d) d

/-- Names that are in use nowhere, for one version, and the time that it is given. -/
structure FreshNames where
  version : String
  temporary : String
  pointer : String
  time : String
deriving DecidableEq, Repr

def workshop (c : ModelCache) (names : FreshNames) : Path :=
  c.folder.child names.temporary

/-- Writes the files of a version under a name that nobody reads. -/
def preparing (c : ModelCache) (m : Model) (names : FreshNames) : List Effect :=
  .makeFolder (c.workshop names) ::
    (versionFiles c.machine.archives m names.time).map fun f => .write
      ((c.workshop names).child f.name) f.content

def naming (c : ModelCache) (names : FreshNames) : Effect :=
  .move (c.workshop names) (c.version names.version)

/-- Writes the new pointer under a name that nobody reads. -/
def announcing (c : ModelCache) (names : FreshNames) : Effect :=
  .write (c.folder.child names.pointer) names.version.toUTF8

def pointing (c : ModelCache) (names : FreshNames) : Effect :=
  .move (c.folder.child names.pointer) c.pointer

/-- The versions in a folder that are neither of two names. -/
def staleVersions (entries : List (String × Node)) (new : String) (previous : Option String) :
    List String :=
  (entries.filter fun e => e.2.isFolder && versionStart.toList.isPrefixOf e.1.toList &&
    decide (e.1 ≠ new) && decide (some e.1 ≠ previous)).map (·.1)

/-- Removes the versions that are neither the new nor the previous one. -/
def pruning (c : ModelCache) (entries : List (String × Node)) (names : FreshNames)
    (previous : Option String) : List Effect :=
  (staleVersions entries names.version previous).map fun name => .removeFolder (c.version name)

/-- The changes that make a version, unseen by readers. -/
def making (c : ModelCache) (m : Model) (names : FreshNames) : List Effect :=
  c.preparing m names ++ [c.naming names]

/-- The changes that make a version the current one, in a folder that had the given entries. -/
def publishing (c : ModelCache) (names : FreshNames) (entries : List (String × Node))
    (previous : Option String) : List Effect :=
  c.announcing names :: c.pointing names :: c.pruning entries names previous

def writing (c : ModelCache) (m : Model) (names : FreshNames) (entries : List (String × Node))
    (previous : Option String) : List Effect :=
  c.making m names ++ c.publishing names entries previous

/-- Writes a version to a folder that had the given entries. If the version cannot be made nothing
is left of it; if the pointer cannot be moved the version stays, and is not the current one. -/
def writeVersion (c : ModelCache) (d : Disk) (m : Model) (names : FreshNames)
    (entries : List (String × Node)) (previous : Option String) : Except Error Unit × Disk :=
  match applyAll (c.making m names) d with
  | .error e => (.error (.disk e), d)
  | .ok made =>
    match applyAll (c.publishing names entries previous) made with
    | .error e => (.error (.disk e), made)
    | .ok published => (.ok (), published)

/-- Writes a model as the current version of the cache, with the folder of the cache if need be. The
previous version stays, for readers that have looked at the pointer before; older ones go. -/
def write (c : ModelCache) (d : Disk) (m : Model) (names : FreshNames) :
    (Except Error Unit × Disk) × List Warning :=
  match d.makeFolders c.folder with
  | .error e => ((.error (.disk e), d), [])
  | .ok d =>
    match c.current d, d.list c.folder with
    | (.error e, ws), _ => ((.error e, d), ws)
    | (.ok _, ws), .error e => ((.error (.disk e), d), ws)
    | (.ok previous, ws), .ok entries =>
      if isWritable c.machine.archives m names.time
        then (c.writeVersion d m names entries previous, ws)
      else ((.error .unwritable, d), ws)

def invalidate (c : ModelCache) (d : Disk) : Except Error Unit × Disk :=
  match d.hasNode c.folder with
  | .error e => (.error (.disk e), d)
  | .ok false => (.ok (), d)
  | .ok true =>
    let removed := d.removeFolder c.folder
    (removed.1.mapError .disk, removed.2)

end ModelCache

end SoundAtlas
