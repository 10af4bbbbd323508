import BootStage.Patch.Arm
/-!
# Distances of branches

Decoding reads the distance field as a number with a sign, or negates it as 26 bits without one;
the two agree where a branch does not go forward. A call is encoded from a difference of positions
that wraps around, and still goes exactly where it was made to go, as far as a branch reaches.
-/

namespace BootStage.Arm

theorem toNat_field (instr : UInt32) : (field instr).toNat = instr.toNat % 0x1000000 :=
  Nat.and_two_pow_sub_one_eq_mod _ 24

theorem field_lt (instr : UInt32) : (field instr).toNat < 0x1000000 := by
  rw [toNat_field]
  exact Nat.mod_lt _ (by decide)

/-! ## Decoding -/

/-- A branch reaches 32 MiB in both directions. -/
theorem distance_bounds (instr : UInt32) :
    -0x2000000 ≤ distance instr ∧ distance instr < 0x2000000 := by
  have hfield := field_lt instr
  unfold distance
  dsimp only
  split <;> omega

theorem toNat_distanceBack (instr : UInt32) :
    (distanceBack instr).toNat = (0x4000000 - 4 * (field instr).toNat) % 0x4000000 := by
  have hfield := field_lt instr
  have hshift : (field instr <<< 2).toNat = 4 * (field instr).toNat := by
    rw [UInt32.toNat_shiftLeft, Nat.shiftLeft_eq]
    change (field instr).toNat * 4 % 0x100000000 = _
    omega
  have hback : ((0 : UInt32) - (field instr <<< 2)).toNat =
      (0x40000000 - (field instr).toNat) % 0x40000000 * 4 := by
    rw [UInt32.toNat_sub, hshift]
    change (0x100000000 - 4 * (field instr).toNat + 0) % 0x100000000 = _
    omega
  -- Both the difference and the mask are four times a number.
  have hmask : (0x3FFFFFC : UInt32).toNat = 0xFFFFFF <<< 2 := rfl
  have hwords : (0xFFFFFF : Nat) = 2 ^ 24 - 1 := rfl
  rw [distanceBack, UInt32.toNat_and, hback, hmask, ← Nat.shiftLeft_eq _ 2,
    ← Nat.shiftLeft_and_distrib, hwords, Nat.and_two_pow_sub_one_eq_mod, Nat.shiftLeft_eq]
  omega

theorem distanceBack_lt (instr : UInt32) : (distanceBack instr).toNat < 0x4000000 := by
  rw [toNat_distanceBack]
  exact Nat.mod_lt _ (by decide)

/-- The sign of a forward distance is lost, and it comes out 2 ^ 26 too far back. -/
theorem distanceBack_eq (instr : UInt32) :
    ((distanceBack instr).toNat : Int) =
      (if 0 < distance instr then 0x4000000 else 0) - distance instr := by
  have hfield := field_lt instr
  have hback := toNat_distanceBack instr
  unfold distance
  dsimp only
  split <;> split <;> omega

/-! ## Encoding -/

/-- The word of a call: its code on top, and below it the distance in words, modulo 2 ^ 24. -/
theorem toNat_call (pos target : Nat) :
    (call pos target).toNat =
      0xEB000000 + ((target - (pos + 8) : Int) % 0x100000000 / 4 % 0x1000000).toNat := by
  generalize hdifference : UInt32.ofNat target - (UInt32.ofNat pos + 8) = difference
  have hwrapped : (difference.toNat : Int) = (target - (pos + 8) : Int) % 0x100000000 := by
    rw [← hdifference, UInt32.toNat_sub, UInt32.toNat_add, UInt32.toNat_ofNat', UInt32.toNat_ofNat']
    change ((0x100000000 - (pos % 0x100000000 + 8) % 0x100000000 + target % 0x100000000) %
      0x100000000 : Nat) = (target - (pos + 8) : Int) % 0x100000000
    omega
  have hwords : (difference >>> 2).toNat = difference.toNat / 4 := by
    rw [UInt32.toNat_shiftRight, Nat.shiftRight_eq_div_pow]
    rfl
  have hfield : (field (difference >>> 2)).toNat = difference.toNat / 4 % 0x1000000 := by
    rw [toNat_field, hwords]
  have hlow := field_lt (difference >>> 2)
  have hcode : (0xEB000000 : UInt32).toNat = 0xEB <<< 24 := rfl
  rw [call, hdifference, UInt32.toNat_or, hcode, ← Nat.shiftLeft_add_eq_or_of_lt hlow, hfield,
    ← hwrapped]
  omega

theorem code_call (pos target : Nat) : (call pos target).toNat / 0x1000000 = 0xEB := by
  rw [toNat_call]
  omega

/-- A call goes where it was made to go, in steps of a word and as far as a branch reaches. -/
theorem destination_call {pos target : Nat} (haligned : target % 4 = pos % 4)
    (hback : (pos : Int) + 8 - 0x2000000 ≤ target) (hahead : (target : Int) < pos + 8 + 0x2000000) :
    destination (call pos target) pos = target := by
  have hfield : ((field (call pos target)).toNat : Int) =
      (target - (pos + 8) : Int) / 4 % 0x1000000 := by
    rw [toNat_field, toNat_call]
    omega
  unfold destination distance
  dsimp only
  rw [hfield]
  split <;> omega

end BootStage.Arm
