import SoundAtlas.Storage.StandardArchive

/-!
What differs from one machine to another and shows: how deeply documents may be nested, how much
there is room for, and the format of archives.
-/

namespace SoundAtlas

structure Machine where
  /-- How deeply arrays and objects may be nested in a document that is read. -/
  readDepth : Nat
  /-- The documents of a cache can be read: the positions in one stand four deep. -/
  four_le_readDepth : 4 ≤ readDepth
  /-- How deeply they may be nested in a document that is laid out. -/
  layoutDepth : Nat
  /-- There is room for fewer entries than this in a list or an array. -/
  room : Nat
  archives : Archive.Format

/-- The machine that the program runs on unless another is named. -/
def Machine.standard : Machine where
  readDepth := 985
  four_le_readDepth := by decide
  layoutDepth := 329
  room := 0x100000000
  archives := .standard

end SoundAtlas
