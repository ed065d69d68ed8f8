import SoundAtlas.Json.Basic
import SoundAtlas.Number.Decimal
import SoundAtlas.Text.Quoted

/-!
How messages show a document: `None`, `True` and `False` for the constants, strings in quotes,
brackets around lists and braces around objects.
-/

namespace SoundAtlas.Json

mutual

def display : Json → String
  | .null => "None"
  | .bool b => if b then "True" else "False"
  | .int n => toString n
  | .float x => Number.DecimalStyle.report.text x
  | .str s => SoundAtlas.Text.quoted s.codes
  | .arr [] => "[]"
  | .arr (v :: vs) => "[" ++ display v ++ displayItems vs ++ "]"
  | .obj [] => "\x7b\x7d"
  | .obj (m :: ms) =>
    "\x7b" ++ SoundAtlas.Text.quoted m.1.codes ++ ": " ++ display m.2 ++ displayMembers ms ++ "\x7d"

def displayItems : List Json → String
  | [] => ""
  | v :: vs => ", " ++ display v ++ displayItems vs

def displayMembers : List (Text × Json) → String
  | [] => ""
  | m :: ms =>
    ", " ++ SoundAtlas.Text.quoted m.1.codes ++ ": " ++ display m.2 ++ displayMembers ms

end

/-- A document as a message of its own: a string without quotes. -/
def plain : Json → Text
  | .str s => s
  | v => .chars v.display

end SoundAtlas.Json
