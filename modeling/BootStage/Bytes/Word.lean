import BootStage.Bytes.Basic
/-!
# Little-endian words

Reading and laying out 16- and 32-bit values, lowest byte first.
-/

namespace BootStage.Bytes

def half (b : Bytes) (pos : Nat) : UInt16 :=
  UInt16.ofNat ((b.byte pos).toNat + 0x100 * (b.byte (pos + 1)).toNat)

/-- The word at `pos`, reading zeros past the end. -/
def word (b : Bytes) (pos : Nat) : UInt32 :=
  UInt32.ofNat ((b.byte pos).toNat + 0x100 * (b.byte (pos + 1)).toNat +
    0x10000 * (b.byte (pos + 2)).toNat + 0x1000000 * (b.byte (pos + 3)).toNat)

def word? (b : Bytes) (pos : Nat) : Option UInt32 :=
  if pos + 4 ≤ b.size then some (b.word pos) else none

def ofHalf (value : UInt16) : Bytes :=
  #[UInt8.ofNat value.toNat, UInt8.ofNat (value.toNat / 0x100)]

def ofWord (value : UInt32) : Bytes :=
  #[UInt8.ofNat value.toNat, UInt8.ofNat (value.toNat / 0x100),
    UInt8.ofNat (value.toNat / 0x10000), UInt8.ofNat (value.toNat / 0x1000000)]

@[simp] theorem size_ofHalf (value : UInt16) : (ofHalf value).size = 2 := rfl

@[simp] theorem size_ofWord (value : UInt32) : (ofWord value).size = 4 := rfl

theorem word?_eq_none_iff (b : Bytes) (pos : Nat) : b.word? pos = none ↔ b.size < pos + 4 := by
  unfold word?
  split <;> simp <;> omega

theorem word?_eq_some_iff {b : Bytes} {pos : Nat} {value : UInt32} :
    b.word? pos = some value ↔ pos + 4 ≤ b.size ∧ b.word pos = value := by
  unfold word?
  split <;> simp [*]

theorem word_ofWord (value : UInt32) : (ofWord value).word 0 = value := by
  apply UInt32.toNat_inj.1
  have hv := value.toNat_lt
  simp only [word, byte, ofWord, UInt32.toNat_ofNat']
  simp
  omega

theorem word_eq_of_byte {b b' : Bytes} {pos pos' : Nat}
    (h : ∀ k, k < 4 → b'.byte (pos' + k) = b.byte (pos + k)) : b'.word pos' = b.word pos := by
  have h0 := h 0 (by omega)
  rw [Nat.add_zero, Nat.add_zero] at h0
  rw [word, word, h0, h 1 (by omega), h 2 (by omega), h 3 (by omega)]

theorem word_overwrite (b : Bytes) (pos : Nat) (value : UInt32) (h : pos + 4 ≤ b.size) :
    (b.overwrite pos (ofWord value)).word pos = value := by
  rw [← word_ofWord value]
  refine word_eq_of_byte fun k hk => ?_
  have hsize := size_ofWord value
  rw [word_ofWord, Nat.zero_add, byte, byte, getElem?_overwrite, if_pos (by omega),
    Nat.add_sub_cancel_left]

theorem word_congr {b b' : Bytes} {pos : Nat}
    (h : ∀ i, pos ≤ i → i < pos + 4 → b'[i]? = b[i]?) : b'.word pos = b.word pos :=
  word_eq_of_byte fun k hk => by rw [byte, byte, h (pos + k) (by omega) (by omega)]

theorem word_overwrite_apart (b : Bytes) {pos start : Nat} {data : Bytes}
    (h : pos + 4 ≤ start ∨ start + data.size ≤ pos) :
    (b.overwrite start data).word pos = b.word pos :=
  word_congr fun i _ _ => by rw [getElem?_overwrite, if_neg (by omega)]

theorem word_append {front : Bytes} {pos : Nat} (h : pos + 4 ≤ front.size) (rest : Bytes) :
    (front ++ rest).word pos = front.word pos :=
  word_congr fun _ _ _ => Array.getElem?_append_left (by omega)

theorem word_append_right (front rest : Bytes) (pos : Nat) :
    (front ++ rest).word (front.size + pos) = rest.word pos := by
  refine word_eq_of_byte fun k hk => ?_
  have hplace : front.size + pos + k - front.size = pos + k := by omega
  rw [byte, byte, Array.getElem?_append_right (by omega), hplace]

theorem byte_of_half_eq {b b' : Bytes} {pos i : Nat} (h : b'.half pos = b.half pos)
    (hstart : pos ≤ i) (hstop : i < pos + 2) : b'.byte i = b.byte i := by
  have hsum := congrArg UInt16.toNat h
  simp only [half, UInt16.toNat_ofNat'] at hsum
  have hbound : ∀ (image : Bytes) (k : Nat), (image.byte k).toNat < 256 :=
    fun image k => (image.byte k).toNat_lt
  have hb0 := hbound b pos
  have hb1 := hbound b (pos + 1)
  have hc0 := hbound b' pos
  have hc1 := hbound b' (pos + 1)
  apply UInt8.toNat_inj.1
  obtain rfl | rfl : i = pos ∨ i = pos + 1 := by omega
  all_goals omega

theorem byte_of_word_eq {b b' : Bytes} {pos i : Nat} (h : b'.word pos = b.word pos)
    (hstart : pos ≤ i) (hstop : i < pos + 4) : b'.byte i = b.byte i := by
  have hsum := congrArg UInt32.toNat h
  simp only [word, UInt32.toNat_ofNat'] at hsum
  have hbound : ∀ (image : Bytes) (k : Nat), (image.byte k).toNat < 256 :=
    fun image k => (image.byte k).toNat_lt
  have hb0 := hbound b pos
  have hb1 := hbound b (pos + 1)
  have hb2 := hbound b (pos + 2)
  have hb3 := hbound b (pos + 3)
  have hc0 := hbound b' pos
  have hc1 := hbound b' (pos + 1)
  have hc2 := hbound b' (pos + 2)
  have hc3 := hbound b' (pos + 3)
  apply UInt8.toNat_inj.1
  obtain rfl | rfl | rfl | rfl : i = pos ∨ i = pos + 1 ∨ i = pos + 2 ∨ i = pos + 3 := by omega
  all_goals omega

end BootStage.Bytes
