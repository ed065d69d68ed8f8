import SoundAtlas.Text.Printable

/-!
Quoted text, as messages show it: between quotes, with what has no printed form written as an
escape. A text is given by its code points, as it may hold surrogates.
-/

namespace SoundAtlas.Text

def hexDigits (width n : Nat) : List Char :=
  (List.range width).reverse.map fun i => Nat.digitChar ((n >>> (4 * i)) % 16)

def quotedCode (quote : Char) (n : Nat) : List Char :=
  if n = quote.toNat ∨ n = 0x5c then ['\\', Char.ofNat n]
  else if n = 0x0a then ['\\', 'n']
  else if n = 0x0d then ['\\', 'r']
  else if n = 0x09 then ['\\', 't']
  else if isPrintable n then [Char.ofNat n]
  else if n < 0x100 then '\\' :: 'x' :: hexDigits 2 n
  else if n < 0x10000 then '\\' :: 'u' :: hexDigits 4 n
  else '\\' :: 'U' :: hexDigits 8 n

/-- Single quotes, unless the text holds single quotes and no double ones. -/
def quoteFor (codes : List Nat) : Char :=
  if codes.contains 0x27 && !codes.contains 0x22 then '"' else '\''

def quoted (codes : List Nat) : String :=
  let quote := quoteFor codes
  String.ofList (quote :: (codes.flatMap (quotedCode quote) ++ [quote]))

def quotedString (s : String) : String :=
  quoted (s.toList.map Char.toNat)

end SoundAtlas.Text
