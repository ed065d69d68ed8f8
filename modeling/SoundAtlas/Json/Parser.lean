import SoundAtlas.Json.Basic
import SoundAtlas.Number.Reading

/-!
Documents read from text. Beside standard JSON, `NaN`, `Infinity` and `-Infinity` are numbers; a
control character in a string, a byte order mark, or anything after the document is an error. Arrays
and objects may be nested to a limit.

Every function takes the characters that are left and gives back what follows what it read.
-/

namespace SoundAtlas.Json

inductive SyntaxError where
  | malformed
  /-- A whole number has more digits than the limit. -/
  | integerTooLong
  /-- Arrays and objects are nested beyond the limit. -/
  | tooDeep
deriving DecidableEq, Repr

def isSpace (c : Char) : Bool :=
  c == ' ' || c == '\t' || c == '\n' || c == '\r'

def skipSpace (cs : List Char) : List Char :=
  cs.dropWhile isSpace

def hexValue? (c : Char) : Option Nat :=
  if '0' ≤ c ∧ c ≤ '9' then some (c.toNat - 48)
  else if 'a' ≤ c ∧ c ≤ 'f' then some (c.toNat - 87)
  else if 'A' ≤ c ∧ c ≤ 'F' then some (c.toNat - 55)
  else none

def hexFour? (a b c d : Char) : Option Nat := do
  return (((← hexValue? a) * 16 + (← hexValue? b)) * 16 + (← hexValue? c)) * 16 + (← hexValue? d)

/-- The code point that one character after a backslash writes. -/
def shortEscape? : Char → Option Nat
  | '"' => some 0x22
  | '\\' => some 0x5c
  | '/' => some 0x2f
  | 'b' => some 0x08
  | 'f' => some 0x0c
  | 'n' => some 0x0a
  | 'r' => some 0x0d
  | 't' => some 0x09
  | _ => none

def stringCodes : List Char → Except SyntaxError (List Nat × List Char)
  | [] => .error .malformed
  | '"' :: r => .ok ([], r)
  | '\\' :: 'u' :: a :: b :: c :: d :: r =>
    match hexFour? a b c d with
    | none => .error .malformed
    | some n => do let (ns, rest) ← stringCodes r; return (n :: ns, rest)
  | '\\' :: c :: r =>
    match shortEscape? c with
    | none => .error .malformed
    | some n => do let (ns, rest) ← stringCodes r; return (n :: ns, rest)
  | c :: r =>
    if c.toNat < 0x20 ∨ c = '\\' then .error .malformed
    else do let (ns, rest) ← stringCodes r; return (c.toNat :: ns, rest)

/-- Whether a code point is the first, or the second, half of a surrogate pair. -/
def isHighSurrogate (n : Nat) : Bool := 0xd800 ≤ n && n ≤ 0xdbff

@[inherit_doc isHighSurrogate]
def isLowSurrogate (n : Nat) : Bool := 0xdc00 ≤ n && n ≤ 0xdfff

/-- Joins the halves of surrogate pairs that stand next to each other. -/
def joinSurrogates : List Nat → List Nat
  | [] => []
  | [n] => [n]
  | n :: m :: r =>
    if isHighSurrogate n && isLowSurrogate m then
      (0x10000 + (n - 0xd800) * 0x400 + (m - 0xdc00)) :: joinSurrogates r
    else n :: joinSurrogates (m :: r)

def stringBody (cs : List Char) : Except SyntaxError (Text × List Char) := do
  let (codes, rest) ← stringCodes cs
  return (.ofCodes (joinSurrogates codes), rest)

/-- The digits at the front, ASCII ones only. -/
def digitRun (cs : List Char) : List Nat × List Char :=
  ((cs.takeWhile Char.isDigit).map fun c => c.toNat - 48, cs.dropWhile Char.isDigit)

/-- The fraction at the front: a point with digits after it, or nothing. -/
def fractionPart (cs : List Char) : Option (List Nat × List Char) :=
  match cs with
  | '.' :: r =>
    match digitRun r with
    | ([], _) => none
    | t => some t
  | _ => none

def exponentPart (cs : List Char) : Option (Int × List Char) :=
  match cs with
  | c :: r =>
    if c = 'e' ∨ c = 'E' then
      let signed := Number.takeSign r
      match digitRun signed.2 with
      | ([], _) => none
      | (ds, rest) => some (Number.signed signed.1 (Number.ofDigits ds), rest)
    else none
  | [] => none

/-- The whole part of a number: a single zero, or digits that do not start with one. -/
def wholePart (cs : List Char) : Option (List Nat × List Char) :=
  match cs with
  | '0' :: r => some ([0], r)
  | cs =>
    match digitRun cs with
    | ([], _) => none
    | t => some t

/-- A number: a whole one if it has neither fraction nor exponent, else a float. -/
def number (cs : List Char) : Except SyntaxError (Json × List Char) :=
  let (negative, r) := match cs with
    | '-' :: r => (true, r)
    | cs => (false, cs)
  match wholePart r with
  | none => .error .malformed
  | some (ds, r) =>
    let fraction := fractionPart r
    let r := match fraction with
      | some (_, r) => r
      | none => r
    let exponent := exponentPart r
    let r := match exponent with
      | some (_, r) => r
      | none => r
    match fraction, exponent with
    | none, none =>
      if Number.digitLimit < ds.length then .error .integerTooLong
      else .ok (.int (Number.signed negative (Number.ofDigits ds)), r)
    | _, _ =>
      let fs := (fraction.map (·.1)).getD []
      let e := (exponent.map (·.1)).getD 0
      .ok (.float (Number.ofDecimal negative (Number.ofDigits (ds ++ fs)) (e - fs.length)), r)

def scalar (cs : List Char) : Except SyntaxError (Json × List Char) :=
  match cs with
  | 'n' :: 'u' :: 'l' :: 'l' :: r => .ok (.null, r)
  | 't' :: 'r' :: 'u' :: 'e' :: r => .ok (.bool true, r)
  | 'f' :: 'a' :: 'l' :: 's' :: 'e' :: r => .ok (.bool false, r)
  | 'N' :: 'a' :: 'N' :: r => .ok (.float (0.0 / 0.0), r)
  | 'I' :: 'n' :: 'f' :: 'i' :: 'n' :: 'i' :: 't' :: 'y' :: r => .ok (.float (1.0 / 0.0), r)
  | '-' :: 'I' :: 'n' :: 'f' :: 'i' :: 'n' :: 'i' :: 't' :: 'y' :: r =>
    .ok (.float (-1.0 / 0.0), r)
  | cs => number cs

mutual

/-- A value at the front, in which arrays and objects are nested to the given depth at most; an
array or an object that is too deep is refused where it opens. The fuel bounds how many values and
members are read. -/
def value : (fuel depth : Nat) → List Char → Except SyntaxError (Json × List Char)
  | 0, _, _ => .error .malformed
  | fuel + 1, depth, cs =>
    match cs, depth with
    | '"' :: r, _ => do let (s, rest) ← stringBody r; return (.str s, rest)
    | '[' :: _, 0 => .error .tooDeep
    | '[' :: r, depth + 1 =>
      match skipSpace r with
      | ']' :: r => .ok (.arr [], r)
      | r => do let (vs, rest) ← items fuel depth r; return (.arr vs, rest)
    | '\x7b' :: _, 0 => .error .tooDeep
    | '\x7b' :: r, depth + 1 =>
      match skipSpace r with
      | '\x7d' :: r => .ok (.obj [], r)
      | r => do let (ms, rest) ← members fuel depth r; return (.ofMembers ms, rest)
    | cs, _ => scalar cs

def items : (fuel depth : Nat) → List Char → Except SyntaxError (List Json × List Char)
  | 0, _, _ => .error .malformed
  | fuel + 1, depth, cs => do
    let (v, r) ← value fuel depth cs
    match skipSpace r with
    | ']' :: r => return ([v], r)
    | ',' :: r => let (vs, rest) ← items fuel depth (skipSpace r); return (v :: vs, rest)
    | _ => throw .malformed

def members : (fuel depth : Nat) → List Char → Except SyntaxError (List (Text × Json) × List Char)
  | 0, _, _ => .error .malformed
  | fuel + 1, depth, cs =>
    match cs with
    | '"' :: r => do
      let (key, r) ← stringBody r
      match skipSpace r with
      | ':' :: r =>
        let (v, r) ← value fuel depth (skipSpace r)
        match skipSpace r with
        | '\x7d' :: r => return ([(key, v)], r)
        | ',' :: r =>
          let (ms, rest) ← members fuel depth (skipSpace r)
          return ((key, v) :: ms, rest)
        | _ => throw .malformed
      | _ => throw .malformed
    | _ => throw .malformed

end

/-- The document that a text is, with arrays and objects nested to the given depth at most. Each
level of nesting and each member takes up a character, so twice as much fuel as there are characters
is enough. -/
def parse (depth : Nat) (s : String) : Except SyntaxError Json := do
  let cs := s.toList
  let (v, rest) ← value (2 * cs.length + 2) depth (skipSpace cs)
  if (skipSpace rest).isEmpty then return v else throw .malformed

end SoundAtlas.Json
