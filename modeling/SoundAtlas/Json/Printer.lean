import SoundAtlas.Json.Basic
import SoundAtlas.Number.Reading
import SoundAtlas.Text.Quoted

/-!
Documents written as text, in ASCII: on one line, or with the members of each level on lines of
their own. Characters beyond ASCII are written as escapes.
-/

namespace SoundAtlas.Json

/-- Floats in documents: the shortest text that reads back. -/
def floatStyle : Number.DecimalStyle :=
  { Number.DecimalStyle.report with notANumber := "NaN", infinity := "Infinity" }

def unitEscape (n : Nat) : List Char :=
  '\\' :: 'u' :: SoundAtlas.Text.hexDigits 4 n

def codeText (n : Nat) : List Char :=
  if n = 0x22 then ['\\', '"']
  else if n = 0x5c then ['\\', '\\']
  else if n = 0x0a then ['\\', 'n']
  else if n = 0x0d then ['\\', 'r']
  else if n = 0x09 then ['\\', 't']
  else if n = 0x0c then ['\\', 'f']
  else if n = 0x08 then ['\\', 'b']
  else if 0x20 ≤ n ∧ n < 0x7f then [Char.ofNat n]
  else if n < 0x10000 then unitEscape n
  else
    unitEscape (0xd800 + (n - 0x10000) / 0x400) ++ unitEscape (0xdc00 + (n - 0x10000) % 0x400)

def stringText (s : Text) : String :=
  String.ofList ('"' :: (s.codes.flatMap codeText ++ ['"']))

/-- A layout: what stands before each item at a depth, and between the last item and the closing
bracket. -/
structure Layout where
  /-- Written before every item of a list at the given depth. -/
  before : Nat → String
  /-- Written before every item but the first, ahead of `before`. -/
  separator : String

def Layout.line : Layout where
  before _ := ""
  separator := ", "

/-- Each item on a line of its own, indented by two blanks a level. -/
def Layout.indented : Layout where
  before depth := "\n" ++ String.ofList (List.replicate (2 * depth) ' ')
  separator := ","

mutual

def render (l : Layout) (depth : Nat) : Json → String
  | .null => "null"
  | .bool b => if b then "true" else "false"
  | .int n => toString n
  | .float x => floatStyle.text x
  | .str s => stringText s
  | .arr [] => "[]"
  | .arr (v :: vs) =>
    "[" ++ l.before (depth + 1) ++ render l (depth + 1) v ++ renderItems l (depth + 1) vs ++
      l.before depth ++ "]"
  | .obj [] => "\x7b\x7d"
  | .obj (m :: ms) =>
    "\x7b" ++ l.before (depth + 1) ++ stringText m.1 ++ ": " ++ render l (depth + 1) m.2 ++
      renderMembers l (depth + 1) ms ++ l.before depth ++ "\x7d"

def renderItems (l : Layout) (depth : Nat) : List Json → String
  | [] => ""
  | v :: vs => l.separator ++ l.before depth ++ render l depth v ++ renderItems l depth vs

def renderMembers (l : Layout) (depth : Nat) : List (Text × Json) → String
  | [] => ""
  | m :: ms =>
    l.separator ++ l.before depth ++ stringText m.1 ++ ": " ++ render l depth m.2 ++
      renderMembers l depth ms

end

def print (v : Json) : String :=
  v.render .line 0

def printIndented (v : Json) : String :=
  v.render .indented 0

mutual

/-- Whether every whole number of a document is within the digit limit of texts. -/
def isWritable : Json → Bool
  | .int n => Number.withinLimit n
  | .arr vs => areWritable vs
  | .obj ms => membersWritable ms
  | _ => true

def areWritable : List Json → Bool
  | [] => true
  | v :: vs => isWritable v && areWritable vs

def membersWritable : List (Text × Json) → Bool
  | [] => true
  | m :: ms => isWritable m.2 && membersWritable ms

end

end SoundAtlas.Json
