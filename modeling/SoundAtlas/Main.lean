import Std.Time.Format
import SoundAtlas.CommandLine.Run

/-!
The program. It takes in what is at the paths that the command line is about, runs the command line
on that, prints, and gives the changes of the cache back to the real disk.
-/

namespace SoundAtlas.Program

def placeText (place : List String) : String :=
  "/" ++ "/".intercalate place

def wayTo (place : List String) : List (List String) :=
  (List.range (place.length + 1)).map place.take

/-- What is at a place of the real disk, if anything. -/
partial def take? (place : List String) : IO (Option Node) := do
  let path := System.mkFilePath [placeText place]
  if ← path.isDir then
    let entries ← (← path.readDir).toList.mapM fun e => do
      return (e.fileName, ← take? (place ++ [e.fileName]))
    return some (.folder (entries.filterMap fun e => e.2.map fun n => (e.1, n)))
  else if ← path.pathExists then return some (.file (← IO.FS.readBinFile path))
  else return none

/-- The disk with an empty folder at a place where the real disk has a folder. -/
def takeFolder (d : Disk) (place : List String) : IO Disk := do
  if (d.at? place).isNone && (← (System.mkFilePath [placeText place]).isDir) then
    return d.put place (.folder [])
  else return d

/-- The disk with what is at a path of the real disk, and with the folders on the way. -/
def takePath (d : Disk) (p : Path) : IO Disk := do
  let steps := (List.range p.parts.length).map fun n => { p with parts := p.parts.take n }
  let places := steps.map (·.placeFrom d.here)
  let d ← (places.flatMap wayTo).foldlM takeFolder d
  let place := p.placeFrom d.here
  match d.at? place, ← take? place with
  | none, some n => return d.put place n
  | _, _ => return d

/-- Writes a file in one step, so that nobody finds half of it. -/
def giveFile (place : List String) (content : ByteArray) : IO Unit := do
  let unfinished := placeText place ++ ".unfinished"
  IO.FS.writeBinFile unfinished content
  IO.FS.rename unfinished (placeText place)

def remove (place : List String) : Node → IO Unit
  | .file _ => IO.FS.removeFile (placeText place)
  | .folder _ => IO.FS.removeDirAll (placeText place)

/-- Changes what is at a place of the real disk. Folders come before files, as a file may name a
folder, and what is not wanted any more goes last. -/
partial def give (place : List String) (old new : Option Node) : IO Unit :=
  match old, new with
  | none, none => return
  | some n, none => remove place n
  | some (.file b), some (.file c) => unless b == c do giveFile place c
  | _, some (.file c) => giveFile place c
  | old, some (.folder entries) => do
    let before := match old with
      | some (.folder es) => es
      | _ => []
    IO.FS.createDirAll (placeText place)
    let (folders, files) := entries.partition (·.2.isFolder)
    for e in folders ++ files do
      give (place ++ [e.1]) (Node.entry? e.1 before) (some e.2)
    for e in before do
      if (Node.entry? e.1 entries).isNone then remove (place ++ [e.1]) e.2

def randomDigits (bytes : USize) : IO String := do
  let random ← IO.getRandomBytes bytes
  return String.ofList (random.toList.flatMap fun b => Text.hexDigits 2 b.toNat)

def timeText : IO String := do
  let now ← Std.Time.Timestamp.now
  let moment := Std.Time.PlainDateTime.ofWallTime (now.toWallTime .zero)
  return moment.format "uuuu-MM-dd'T'HH:mm:ss" ++ "+00:00"

def freshNames : IO ModelCache.FreshNames := do
  let id ← randomDigits 16
  return { version := ModelCache.versionStart ++ id, temporary := ".tmp-" ++ id,
           pointer := ".pointer-" ++ id ++ ".tmp", time := ← timeText }

def environment : IO Settings.Environment := do
  let values ← Settings.variableNames.mapM fun name => do return (name, ← IO.getEnv name)
  return values.filterMap fun v => v.2.map fun text => (v.1, text)

/-- Runs a command line under settings. -/
def runWith (settings : Settings) (words : List String) : IO UInt32 := do
  let here := (Path.ofString (← IO.currentDir).toString).parts
  let blank : Disk := { root := .folder [], here := here }
  let disk ← (wayTo here).foldlM takeFolder blank
  let disk ← (CommandLine.pathsOf settings words).foldlM takePath disk
  let seed := (← IO.getRandomBytes 8).toList.foldl (fun n b => 256 * n + b.toNat) 0
  let run := CommandLine.run
    { machine := .standard, settings := settings, disk := disk, names := ← freshNames,
      freshSeed := seed } words
  for p in CommandLine.pathsOf settings words do
    let place := p.placeFrom here
    give place (disk.at? place) (run.disk.at? place)
  IO.print run.output
  match run.ending with
  | .exit status =>
    if status = 2 then IO.eprintln CommandLine.manual.usage
    return status.toUInt32
  | .fault f =>
    IO.eprintln ((f.message?.map Json.Text.legible).getD "What is asked for cannot be done.")
    return 1

end SoundAtlas.Program

open SoundAtlas in
def main (words : List String) : IO UInt32 := do
  let root := Path.ofString (← IO.appDir).toString
  match Settings.ofEnvironment root (← Program.environment) with
  | .error name =>
    IO.eprintln s!"{name} is no number."
    return 1
  | .ok settings => Program.runWith settings words
