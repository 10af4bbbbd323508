/-!
# Byte images

Firmware containers, code sections and disk sectors are arrays of bytes. This module holds
the pointwise operations the rest of the library is built from, with one view lemma each:
`getElem?_overwrite` says what a byte is after bytes were laid over an image.
-/

namespace BootStage

abbrev Bytes := Array UInt8

namespace Bytes

def ofAscii (text : String) : Bytes :=
  (text.toList.map fun c => UInt8.ofNat c.toNat).toArray

/-- The byte at `pos`, zero past the end. -/
def byte (b : Bytes) (pos : Nat) : UInt8 :=
  b[pos]?.getD 0

/-- The `len` bytes from `pos` on, cut short at the end of the image. -/
def window (b : Bytes) (pos len : Nat) : Bytes :=
  b.extract pos (pos + len)

/-- The bytes at `start ≤ i < stop`, when that is a range of the image. -/
def range? (b : Bytes) (start stop : Nat) : Option Bytes :=
  if start ≤ stop ∧ stop ≤ b.size then some (b.extract start stop) else none

/-- `b` with `data` laid over it from `pos` on. Bytes that would fall past the end are
dropped, so the size never changes. -/
def overwrite (b : Bytes) (pos : Nat) (data : Bytes) : Bytes :=
  Nat.fold data.size (fun i h acc => acc.setIfInBounds (pos + i) data[i]) b

/-- `b` with the `removed` bytes at `pos` replaced by `inserted`, which moves what follows. -/
def splice (b : Bytes) (pos removed : Nat) (inserted : Bytes) : Bytes :=
  b.extract 0 pos ++ inserted ++ b.extract (pos + removed) b.size

private theorem size_fold (b data : Bytes) (pos n : Nat) (hn : n ≤ data.size) :
    (Nat.fold n (fun i h acc => acc.setIfInBounds (pos + i) data[i]) b).size =
      b.size := by
  induction n with
  | zero => rfl
  | succ n ih => rw [Nat.fold_succ, Array.size_setIfInBounds, ih (by omega)]

private theorem getElem?_fold (b data : Bytes) (pos n i : Nat) (hn : n ≤ data.size) :
    (Nat.fold n (fun i h acc => acc.setIfInBounds (pos + i) data[i]) b)[i]? =
      if pos ≤ i ∧ i < pos + n ∧ i < b.size then data[i - pos]? else b[i]? := by
  induction n with
  | zero =>
    rw [Nat.fold_zero, if_neg (by omega)]
  | succ n ih =>
    rw [Nat.fold_succ, Array.getElem?_setIfInBounds, size_fold _ _ _ _ (by omega), ih (by omega)]
    by_cases hi : pos + n = i
    · subst hi
      have hpos : pos + n - pos = n := by omega
      by_cases hb : pos + n < b.size
      · rw [if_pos rfl, if_pos hb, if_pos (by omega), hpos, Array.getElem?_eq_getElem (by omega)]
      · rw [if_pos rfl, if_neg hb, if_neg (by omega), Array.getElem?_eq_none (by omega)]
    · rw [if_neg hi]
      by_cases hw : pos ≤ i ∧ i < pos + n ∧ i < b.size
      · rw [if_pos hw, if_pos (by omega)]
      · rw [if_neg hw, if_neg (by omega)]

@[simp] theorem size_overwrite (b : Bytes) (pos : Nat) (data : Bytes) :
    (b.overwrite pos data).size = b.size :=
  size_fold b data pos data.size (Nat.le_refl _)

theorem getElem?_overwrite (b : Bytes) (pos : Nat) (data : Bytes) (i : Nat) :
    (b.overwrite pos data)[i]? =
      if pos ≤ i ∧ i < pos + data.size ∧ i < b.size then data[i - pos]? else b[i]? :=
  getElem?_fold b data pos data.size i (Nat.le_refl _)

theorem overwrite_extract (b : Bytes) (start stop : Nat) :
    b.overwrite start (b.extract start stop) = b := by
  apply Array.ext_getElem?
  intro i
  rw [getElem?_overwrite]
  split
  · next hin =>
    rw [Array.size_extract] at hin
    rw [Array.getElem?_extract, if_pos (by omega), Nat.add_sub_cancel' hin.1]
  · rfl

theorem extract_overwrite (b : Bytes) (pos : Nat) (data : Bytes) (h : pos + data.size ≤ b.size) :
    (b.overwrite pos data).extract pos (pos + data.size) = data := by
  apply Array.ext_getElem?
  intro i
  rw [Array.getElem?_extract, size_overwrite, getElem?_overwrite]
  by_cases hi : i < data.size
  · rw [if_pos (by omega), if_pos (by omega), Nat.add_sub_cancel_left]
  · rw [if_neg (by omega), Array.getElem?_eq_none (by omega)]

theorem extract_between {front part : Bytes} {start stop : Nat} (hstart : front.size = start)
    (hstop : start + part.size = stop) (rest : Bytes) :
    (front ++ part ++ rest).extract start stop = part := by
  subst hstart hstop
  simp [Array.extract_append]

theorem extract_last {front part : Bytes} {start stop : Nat} (hstart : front.size = start)
    (hstop : start + part.size = stop) : (front ++ part).extract start stop = part := by
  have hpart := extract_between hstart hstop #[]
  rw [Array.append_empty] at hpart
  exact hpart

theorem getElem?_window (b : Bytes) (pos : Nat) {len i : Nat} (hi : i < len) :
    (b.window pos len)[i]? = b[pos + i]? := by
  rw [window, Array.getElem?_extract]
  split
  · rfl
  · rw [Array.getElem?_eq_none (by omega)]

theorem size_window_le (b : Bytes) (pos len : Nat) : (b.window pos len).size ≤ len := by
  rw [window, Array.size_extract]
  omega

theorem window_congr {b b' : Bytes} {pos len : Nat}
    (h : ∀ i, pos ≤ i → i < pos + len → b'[i]? = b[i]?) :
    b'.window pos len = b.window pos len := by
  apply Array.ext_getElem?
  intro i
  by_cases hi : i < len
  · rw [getElem?_window b' pos hi, getElem?_window b pos hi, h (pos + i) (by omega) (by omega)]
  · have hout : ∀ image : Bytes, (image.window pos len)[i]? = none := by
      intro image
      have := size_window_le image pos len
      exact Array.getElem?_eq_none (by omega)
    rw [hout b', hout b]

theorem eq_of_byte {b b' : Bytes} (hsize : b'.size = b.size)
    (h : ∀ i < b.size, b'.byte i = b.byte i) : b' = b := by
  apply Array.ext hsize
  intro i hi' hi
  have hbyte := h i hi
  simpa only [byte, Array.getElem?_eq_getElem hi', Array.getElem?_eq_getElem hi,
    Option.getD_some] using hbyte

theorem byte_of_window_eq {b b' : Bytes} {pos len i : Nat}
    (h : b'.window pos len = b.window pos len) (hstart : pos ≤ i) (hstop : i < pos + len) :
    b'.byte i = b.byte i := by
  have hshown : ∀ image : Bytes, (image.window pos len)[i - pos]? = image[i]? := by
    intro image
    rw [getElem?_window image pos (by omega), Nat.add_sub_cancel' hstart]
  rw [byte, byte, ← hshown b', ← hshown b, h]

theorem range?_some {b part : Bytes} {start stop : Nat} (h : b.range? start stop = some part) :
    start ≤ stop ∧ stop ≤ b.size ∧ part.size = stop - start := by
  unfold range? at h
  split at h
  · next hfits =>
    obtain rfl := Option.some.inj h
    refine ⟨hfits.1, hfits.2, ?_⟩
    rw [Array.size_extract]
    omega
  · cases h

theorem range?_eq_some {b : Bytes} {start stop : Nat} (h : start ≤ stop) (hstop : stop ≤ b.size) :
    b.range? start stop = some (b.extract start stop) :=
  if_pos ⟨h, hstop⟩

theorem range?_eq_none {b : Bytes} {start stop : Nat} (h : b.size < stop) :
    b.range? start stop = none :=
  if_neg fun hin => Nat.not_le.2 h hin.2

theorem size_splice (b : Bytes) (pos removed : Nat) (inserted : Bytes)
    (h : pos + removed ≤ b.size) :
    (b.splice pos removed inserted).size = b.size - removed + inserted.size := by
  simp only [splice, Array.size_append, Array.size_extract]
  omega

end Bytes
end BootStage
