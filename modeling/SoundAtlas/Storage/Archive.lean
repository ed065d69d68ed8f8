import SoundAtlas.Numeric.Tensor

/-!
Archives of named arrays, whose entries are words of 64 bits, and the ways to keep them in files.
How the bytes of such a file are made and understood is not settled here: a format is anything that
turns archives into bytes, and bytes into an archive or an error.
-/

namespace SoundAtlas

abbrev Archive := List (String × Tensor UInt64)

namespace Archive

inductive Error where
  /-- The bytes end before anything has been read. -/
  | empty
  /-- The bytes begin like an archive and do not go on like one. -/
  | damaged
  /-- The bytes are no archive. -/
  | unknown
  /-- The archive has no array of this name. -/
  | missing (name : String)
deriving DecidableEq, Repr

structure Format where
  write : Archive → ByteArray
  read : ByteArray → Except Error Archive

def get (a : Archive) (name : String) : Except Error (Tensor UInt64) :=
  match a.find? fun e => e.1 = name with
  | some e => .ok e.2
  | none => .error (.missing name)

end Archive

end SoundAtlas
