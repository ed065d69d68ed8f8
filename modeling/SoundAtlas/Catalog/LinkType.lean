import SoundAtlas.Json.Display
import SoundAtlas.Text.Line

/-!
The roles that an artist can play on a track.
-/

namespace SoundAtlas

inductive LinkType where
  | artist
  | arranger
  | composer
  | conductor
  | lyricist
  | mixer
  | performer
  | producer
  | releaseArtist
  | remixer
  | writer
deriving DecidableEq, Repr

namespace LinkType

def all : List LinkType :=
  [.artist, .arranger, .composer, .conductor, .lyricist, .mixer, .performer, .producer,
   .releaseArtist, .remixer, .writer]

def ordinal : LinkType → Nat
  | .artist => 0
  | .arranger => 1
  | .composer => 2
  | .conductor => 3
  | .lyricist => 4
  | .mixer => 5
  | .performer => 6
  | .producer => 7
  | .releaseArtist => 8
  | .remixer => 9
  | .writer => 10

def name : LinkType → String
  | .artist => "ARTIST"
  | .arranger => "ARRANGER"
  | .composer => "COMPOSER"
  | .conductor => "CONDUCTOR"
  | .lyricist => "LYRICIST"
  | .mixer => "MIXER"
  | .performer => "PERFORMER"
  | .producer => "PRODUCER"
  | .releaseArtist => "RELEASE_ARTIST"
  | .remixer => "REMIXER"
  | .writer => "WRITER"

inductive Error where
  /-- No role has this place. -/
  | ordinal (n : Int)
  /-- No role has this name; `shown` is the value as messages show it. -/
  | name (shown : String)
deriving DecidableEq, Repr

/-- The wording of an error. A wrong place has none. -/
def Error.message? : Error → Option String
  | .ordinal _ => none
  | .name shown => some ("Unknown artist link type: " ++ shown)

def ofOrdinal (n : Int) : Except Error LinkType :=
  match all.find? fun t => (t.ordinal : Int) = n with
  | some t => .ok t
  | none => .error (.ordinal n)

/-- A written name in the form in which roles are named: without blanks around it, in capitals, with
`_` for `-`. -/
def normalize (s : String) : String :=
  String.ofList (((Text.strip s).toList.flatMap Text.capitals).map fun c =>
    if c = '-' then '_' else c)

def ofName? (s : String) : Option LinkType :=
  all.find? fun t => t.name = normalize s

def ofString (s : String) : Except Error LinkType :=
  match ofName? s with
  | some t => .ok t
  | none => .error (.name (Json.string s).display)

/-- The role that a value stands for: a number is a place, a truth value the first or second place,
a string a name. -/
def ofJson : Json → Except Error LinkType
  | .int n => ofOrdinal n
  | .bool b => ofOrdinal (if b then 1 else 0)
  | .str (.chars s) => ofString s
  | v => .error (.name v.display)

end LinkType

end SoundAtlas
