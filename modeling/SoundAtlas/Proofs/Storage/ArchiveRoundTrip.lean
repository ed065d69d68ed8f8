import Mathlib
import SoundAtlas.Storage.StandardArchive

/-!
What a cache needs of a format of archives, and that the standard format has it: an archive is read
back as it was written. Every piece of it can be taken off the front of whatever follows, and the
closing record is found at the end.
-/

namespace SoundAtlas

lemma fromUTF8?_toUTF8 (s : String) : String.fromUTF8? s.toUTF8 = some s := by
  unfold String.fromUTF8?
  rw [String.toUTF8_eq_toByteArray, dif_pos s.isValidUTF8]
  rfl

namespace Archive

/-- A format that loses nothing of two arrays kept under two names: both are found again, bit by
bit. -/
def Format.Lossless (f : Format) (first second : String) : Prop :=
  ∀ t u : Tensor UInt64, ∃ a, f.read (f.write [(first, t), (second, u)]) = .ok a ∧
    a.get first = .ok t ∧ a.get second = .ok u

/-! ### Numbers -/

lemma takeNat_putNat (n : ℕ) (bs : List UInt8) : takeNat (putNat n ++ bs) = some (n, bs) := by
  induction n using putNat.induct with
  | case1 n hn =>
    have htoNat : (UInt8.ofNat n).toNat = n := by
      rw [UInt8.toNat_ofNat']
      omega
    rw [putNat, if_pos hn, List.singleton_append, takeNat, htoNat, if_pos hn]
  | case2 n hn ih =>
    have htoNat : (UInt8.ofNat (n % 128 + 128)).toNat = n % 128 + 128 := by
      rw [UInt8.toNat_ofNat']
      omega
    rw [putNat, if_neg hn, List.cons_append, takeNat, htoNat, if_neg (by omega), ih,
      Option.map_some]
    congr 2
    omega

lemma takeBytes_putBytes (width : ℕ) {n : ℕ} (hn : n < 256 ^ width) (bs : List UInt8) :
    takeBytes width (putBytes width n ++ bs) = some (n, bs) := by
  induction width generalizing n with
  | zero =>
    obtain rfl : n = 0 := by simpa using hn
    rfl
  | succ width ih =>
    have hdiv : n / 256 < 256 ^ width := by
      rw [Nat.div_lt_iff_lt_mul (by decide)]
      rwa [pow_succ] at hn
    have htoNat : (UInt8.ofNat (n % 256)).toNat = n % 256 := by
      rw [UInt8.toNat_ofNat']
      omega
    rw [putBytes, List.cons_append, takeBytes, ih hdiv, Option.map_some, htoNat, Nat.mod_add_div]

lemma takeWord_putWord (x : UInt64) (bs : List UInt8) :
    takeWord (putWord x ++ bs) = some (x, bs) := by
  have hlt : x.toNat < 256 ^ 8 := x.toNat_lt
  rw [takeWord, putWord, takeBytes_putBytes 8 hlt, Option.map_some, UInt64.ofNat_toNat]

lemma takeMany_flatMap {α : Type} {take : List UInt8 → Option (α × List UInt8)}
    {put : α → List UInt8} (h : ∀ x bs, take (put x ++ bs) = some (x, bs)) (xs : List α)
    (bs : List UInt8) : takeMany take xs.length (xs.flatMap put ++ bs) = some (xs, bs) := by
  induction xs with
  | nil => rfl
  | cons x xs ih =>
    rw [List.flatMap_cons, List.append_assoc, List.length_cons, takeMany, h]
    simp only [Option.bind_eq_bind, Option.bind_some, ih, Option.pure_def]

/-! ### Arrays -/

lemma takeName_putName (s : String) (bs : List UInt8) :
    takeName (putName s ++ bs) = some (s, bs) := by
  have hsize : s.toUTF8.data.toList.length = s.toUTF8.size := by simp
  have hname : (⟨s.toUTF8.data.toList.toArray⟩ : ByteArray) = s.toUTF8 := by
    rw [Array.toArray_toList]
  rw [takeName, putName, List.append_assoc, takeNat_putNat]
  simp only [Option.bind_eq_bind, Option.bind_some]
  rw [if_neg (by rw [List.length_append, hsize]; omega), List.take_left' hsize,
    List.drop_left' hsize,
    hname, fromUTF8?_toUTF8]
  rfl

lemma ofEntries_eq (t : Tensor UInt64) : Tensor.ofEntries t.shape t.entries = .ok t :=
  dif_pos t.length_entries

lemma takeTensor_putTensor (t : Tensor UInt64) (bs : List UInt8) :
    takeTensor (putTensor t ++ bs) = some (t, bs) := by
  rw [takeTensor, putTensor, List.append_assoc, List.append_assoc, takeNat_putNat]
  simp only [Option.bind_eq_bind, Option.bind_some]
  rw [takeMany_flatMap takeNat_putNat]
  simp only [Option.bind_some]
  rw [← t.length_entries, takeMany_flatMap takeWord_putWord]
  simp only [Option.bind_some, ofEntries_eq]
  rfl

lemma takeEntry_put (e : String × Tensor UInt64) (bs : List UInt8) :
    takeEntry ((putName e.1 ++ putTensor e.2) ++ bs) = some (e, bs) := by
  rw [takeEntry, List.append_assoc, takeName_putName]
  simp only [Option.bind_eq_bind, Option.bind_some, takeTensor_putTensor]
  rfl

lemma readArrays_front (a : Archive) (bs : List UInt8) : readArrays (front a ++ bs) = some a := by
  have hfront : front a ++ bs = signature ++ (mark :: (putNat a.length ++
      ((a.flatMap fun e => putName e.1 ++ putTensor e.2) ++ bs))) := by
    simp [front]
  rw [hfront, readArrays, List.drop_left]
  dsimp only
  rw [if_neg (by simp), takeNat_putNat]
  simp only [Option.bind_eq_bind, Option.bind_some]
  rw [takeMany_flatMap takeEntry_put]
  rfl

/-! ### The closing record -/

lemma closingOf_append (bs : List UInt8) :
    closingOf (bs ++ closing).reverse = some (bs.reverse, closing) := by
  have htake : ((bs ++ closing).reverse.take closingSize).reverse = closing := by
    rw [List.reverse_append, List.take_left' (by decide), List.reverse_reverse]
  have hdrop : (bs ++ closing).reverse.drop closingSize = bs.reverse := by
    rw [List.reverse_append, List.drop_left' (by decide)]
  rw [closingOf, htake, hdrop]
  exact if_pos (by decide)

/-- **An archive is read back**: the same arrays under the same names, bit by bit. -/
lemma read_write (a : Archive) : read (write a) = .ok a := by
  have hprefix : signature.isPrefixOf (front a ++ closing) = true := by
    simp [front, List.isPrefixOf_iff_prefix]
  have hclosed : readClosed (front a ++ closing) (front a).reverse closing = some a := by
    rw [readClosed]
    exact (if_pos (by decide)).trans (readArrays_front a closing)
  rw [read, write]
  simp only [closingOf_append, hprefix, hclosed]
  rw [if_neg (by simp [front, signature])]
  rfl

lemma lossless_standard {first second : String} (h : first ≠ second) :
    Format.standard.Lossless first second := by
  intro t u
  refine ⟨_, read_write _, ?_, ?_⟩
  · rw [get, List.find?_cons_of_pos (by simp)]
  · rw [get, List.find?_cons_of_neg (by simpa using h), List.find?_cons_of_pos (by simp)]

/-- In the standard format there is nothing to be read in a file only if it has no bytes. -/
lemma read_eq_empty {bytes : ByteArray} :
    Format.standard.read bytes = .error .empty ↔ bytes.data.toList = [] := by
  change read bytes = .error .empty ↔ _
  unfold read
  by_cases h : bytes.data.toList = []
  · simp [h]
  · refine iff_of_false (fun hr => ?_) h
    have hne : bytes.data.toList.isEmpty = false := by simpa using h
    simp only [hne, Bool.false_eq_true, if_false] at hr
    split at hr
    · cases hr
    · split at hr
      · cases hr
      · split at hr <;> cases hr

end Archive

end SoundAtlas
