import BootStage.Bytes.Word
/-!
# Bounds-checked writes

`writeStart` decides for every write whether it fits its image. Positions and displacements
are 64-bit, and a sum that leaves that range is refused like one that leaves the image.
-/

namespace BootStage

/-- A write that would land, wholly or in part, outside its image. -/
structure WriteFailure where
  /-- Anchor of the write, usually where a pattern was found. -/
  base : Nat
  offset : Int
  len : Nat
  size : Nat
  deriving DecidableEq, Repr

def positionLimit : Nat := 0x10000000000000000

/-- The position `offset` away from `base`, unless the sum is negative or overflows. -/
def displaced? (base : Nat) (offset : Int) : Option Nat :=
  let sum := (base : Int) + offset
  if 0 ≤ sum ∧ sum.toNat < positionLimit then some sum.toNat else none

def advanced? (start len : Nat) : Option Nat :=
  if start + len < positionLimit then some (start + len) else none

theorem displaced?_eq_some_iff {base start : Nat} {offset : Int} :
    displaced? base offset = some start ↔
      (start : Int) = base + offset ∧ start < positionLimit := by
  unfold displaced?
  dsimp only
  split
  · rw [Option.some_inj]
    omega
  · next hout => exact iff_of_false nofun fun h => hout (by omega)

theorem advanced?_eq_some_iff {start len stop : Nat} :
    advanced? start len = some stop ↔ start + len = stop ∧ stop < positionLimit := by
  unfold advanced?
  split
  · rw [Option.some_inj]
    omega
  · next hout => exact iff_of_false nofun fun h => hout (by omega)

namespace Bytes

/-- Where a write of `len` bytes at `base + offset` starts in an image of `size` bytes, if it
fits there. -/
def writeStart (size base : Nat) (offset : Int) (len : Nat) : Except WriteFailure Nat :=
  match displaced? base offset with
  | none => .error ⟨base, offset, len, size⟩
  | some start =>
    match advanced? start len with
    | none => .error ⟨base, offset, len, size⟩
    | some stop => if stop ≤ size then .ok start else .error ⟨base, offset, len, size⟩

def writeDisplaced (b : Bytes) (base : Nat) (offset : Int) (data : Bytes) :
    Except WriteFailure Bytes :=
  (writeStart b.size base offset data.size).map (b.overwrite · data)

def write (b : Bytes) (pos : Nat) (data : Bytes) : Except WriteFailure Bytes :=
  b.writeDisplaced pos 0 data

def writeHalf (b : Bytes) (pos : Nat) (value : UInt16) : Except WriteFailure Bytes :=
  b.write pos (ofHalf value)

def writeWord (b : Bytes) (pos : Nat) (value : UInt32) : Except WriteFailure Bytes :=
  b.write pos (ofWord value)

/-- Why a range could not be replaced: it does not lie inside the image. -/
structure SpliceFailure where
  pos : Nat
  removed : Nat
  size : Nat
  deriving DecidableEq, Repr

def replaceRange (b : Bytes) (pos removed : Nat) (inserted : Bytes) :
    Except SpliceFailure Bytes :=
  match advanced? pos removed with
  | none => .error ⟨pos, removed, b.size⟩
  | some stop =>
    if stop ≤ b.size then .ok (b.splice pos removed inserted) else .error ⟨pos, removed, b.size⟩

theorem writeStart_eq_ok_iff {size base start len : Nat} {offset : Int} :
    writeStart size base offset len = .ok start ↔
      (start : Int) = base + offset ∧ start + len ≤ size ∧ start + len < positionLimit := by
  constructor
  · intro h
    unfold writeStart at h
    split at h
    · cases h
    · next sum hsum =>
      split at h
      · cases h
      · next stop hstop =>
        obtain ⟨rfl, hlimit⟩ := advanced?_eq_some_iff.1 hstop
        split at h
        · next hfits =>
          obtain rfl := Except.ok.inj h
          exact ⟨(displaced?_eq_some_iff.1 hsum).1, hfits, hlimit⟩
        · cases h
  · rintro ⟨hstart, hfits, hlimit⟩
    have hsum : displaced? base offset = some start :=
      displaced?_eq_some_iff.2 ⟨hstart, by omega⟩
    have hstop : advanced? start len = some (start + len) :=
      advanced?_eq_some_iff.2 ⟨rfl, hlimit⟩
    rw [writeStart, hsum]
    dsimp only
    rw [hstop]
    dsimp only
    rw [if_pos hfits]

theorem writeStart_eq_ok {size base : Nat} {offset : Int} {len start : Nat}
    (h : writeStart size base offset len = .ok start) :
    (start : Int) = base + offset ∧ start + len ≤ size :=
  ⟨(writeStart_eq_ok_iff.1 h).1, (writeStart_eq_ok_iff.1 h).2.1⟩

theorem writeStart_of_fits {size base start len : Nat} {offset : Int}
    (hstart : (start : Int) = base + offset) (hfits : start + len ≤ size)
    (hlimit : size < positionLimit) : writeStart size base offset len = .ok start :=
  writeStart_eq_ok_iff.2 ⟨hstart, hfits, Nat.lt_of_le_of_lt hfits hlimit⟩

/-- A failing write reports what was asked of it. -/
theorem writeStart_eq_error {size base : Nat} {offset : Int} {len : Nat} {err : WriteFailure}
    (h : writeStart size base offset len = .error err) : err = ⟨base, offset, len, size⟩ := by
  unfold writeStart at h
  split at h
  · exact (Except.error.inj h).symm
  · split at h
    · exact (Except.error.inj h).symm
    · split at h
      · cases h
      · exact (Except.error.inj h).symm

theorem writeStart_cases (size pos len : Nat) :
    (pos + len ≤ size ∧ writeStart size pos 0 len = .ok pos) ∨
      writeStart size pos 0 len = .error ⟨pos, 0, len, size⟩ := by
  cases hstart : writeStart size pos 0 len with
  | ok start =>
    obtain ⟨hsum, hfits⟩ := writeStart_eq_ok hstart
    obtain rfl : start = pos := by omega
    exact .inl ⟨hfits, rfl⟩
  | error err => exact .inr (congrArg Except.error (writeStart_eq_error hstart))

end Bytes
end BootStage
