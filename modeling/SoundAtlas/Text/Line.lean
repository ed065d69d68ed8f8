import SoundAtlas.Text.Character

/-!
Texts taken apart and put together: without the blanks at their ends, cut at a separator, and as
lines filled with words.
-/

namespace SoundAtlas.Text

/-- The characters without those of a class at either end. -/
def trim (p : Char → Bool) (cs : List Char) : List Char :=
  ((cs.dropWhile p).reverse.dropWhile p).reverse

def stripChars (cs : List Char) : List Char :=
  trim isBlank cs

def strip (s : String) : String :=
  String.ofList (stripChars s.toList)

/-- The pieces between separators; a text without separator is one piece. -/
def split {α : Type} [DecidableEq α] (separator : α) : List α → List (List α)
  | [] => [[]]
  | c :: cs =>
    if c = separator then [] :: split separator cs
    else
      match split separator cs with
      | [] => [[c]]
      | p :: ps => (c :: p) :: ps

/-! ### Filling lines

Each word goes to the line of the one before it, as long as it fits. -/

structure Filling where
  full : List String
  open? : Option String

/-- Adds a word: to the open line if both fit in `width` characters with a blank between them, or
else to a new one. -/
def Filling.add (width : Nat) (f : Filling) (word : String) : Filling :=
  match f.open? with
  | none => { f with open? := some word }
  | some line =>
    if line.length + 1 + word.length ≤ width then { f with open? := some (line ++ " " ++ word) }
    else { full := f.full ++ [line], open? := some word }

/-- The lines of words. A word that is too long for any line has one for itself. -/
def fill (width : Nat) (words : List String) : List String :=
  let f := words.foldl (Filling.add width) ⟨[], none⟩
  f.full ++ f.open?.toList

def blanks (n : Nat) : String :=
  String.ofList (List.replicate n ' ')

end SoundAtlas.Text
