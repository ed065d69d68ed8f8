import SoundAtlas.Number.Decimal
import SoundAtlas.Text.Line

/-!
Numbers read from text. Blanks around a number are allowed, except those that separate records;
digits may be of any script, and a single low line may stand between two digits.
-/

namespace SoundAtlas.Number

open SoundAtlas.Text

/-- The most decimal digits that a whole number may have in a text. -/
def digitLimit : Nat := 4300

def withinLimit (n : Int) : Bool :=
  n.natAbs < Nat.pow 10 digitLimit

/-- A sign at the front, if any: whether it is a minus, and the rest. -/
def takeSign : List Char → Bool × List Char
  | '-' :: r => (true, r)
  | '+' :: r => (false, r)
  | r => (false, r)

/-- The digits at the front, with single low lines between them, and the rest. A low line that no
digit follows is left in the rest. -/
def takeDigits : List Char → List Nat × List Char
  | [] => ([], [])
  | '_' :: c :: r =>
    match decimalValue? c with
    | some d => let t := takeDigits r; (d :: t.1, t.2)
    | none => ([], '_' :: c :: r)
  | c :: r =>
    match decimalValue? c with
    | some d => let t := takeDigits r; (d :: t.1, t.2)
    | none => ([], c :: r)

def takeRun : List Char → List Nat × List Char
  | '_' :: r => ([], '_' :: r)
  | cs => takeDigits cs

def ofDigits (ds : List Nat) : Nat :=
  ds.foldl (fun n d => 10 * n + d) 0

/-- Whether a character may stand around a number: a blank that does not separate records. -/
def isMargin (c : Char) : Bool :=
  isBlank c && !(0x1c ≤ c.toNat && c.toNat ≤ 0x1f)

/-- Reads a whole number: blanks, a sign, and digits up to the limit. -/
def readWhole? (s : String) : Option Int :=
  let signed := takeSign (trim isMargin s.toList)
  match takeRun signed.2 with
  | (ds, []) =>
    if ds.isEmpty || digitLimit < ds.length then none
    else some (if signed.1 then -(ofDigits ds : Int) else ofDigits ds)
  | _ => none

/-- An exponent at the front, or nothing: its value and the rest. -/
def takeExponent : List Char → Int × List Char
  | [] => (0, [])
  | c :: r =>
    if c = 'e' ∨ c = 'E' then
      let signed := takeSign r
      match takeRun signed.2 with
      | ([], _) => (0, c :: r)
      | (ds, rest) => (if signed.1 then -(ofDigits ds : Int) else ofDigits ds, rest)
    else (0, c :: r)

/-- The fraction at the front: a point and digits, which may be missing, and the rest. -/
def takeFraction : List Char → List Nat × List Char
  | '.' :: r => takeRun r
  | r => ([], r)

/-- Reads the size of a real number, without sign or blanks. -/
def readSize? (cs : List Char) : Option (Nat × Int) :=
  let whole := takeRun cs
  let fraction := takeFraction whole.2
  let digits := whole.1 ++ fraction.1
  if digits.isEmpty then none
  else
    match takeExponent fraction.2 with
    | (e, []) => some (ofDigits digits, e - fraction.1.length)
    | _ => none

def infinityNames : List String := ["inf", "infinity"]

/-- Reads a real number: blanks, a sign, digits with a point and an exponent, or the name of an
infinity or of no number, in letters of any case. Too large a number is infinite. -/
def readReal? (s : String) : Option Float :=
  let signed := takeSign (trim isMargin s.toList)
  let name := String.ofList (signed.2.map Char.toLower)
  if infinityNames.contains name then some (if signed.1 then -(1.0 / 0.0) else 1.0 / 0.0)
  else if name = "nan" then some (0.0 / 0.0)
  else (readSize? signed.2).map fun d => ofDecimal signed.1 d.1 d.2

end SoundAtlas.Number
