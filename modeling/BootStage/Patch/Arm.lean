/-!
# Branch instructions

An ARM branch holds its distance as 24 bits, counted in words from eight bytes past itself.
-/

namespace BootStage.Arm

/-- The distance field of a branch instruction. -/
def field (instr : UInt32) : UInt32 :=
  instr &&& 0xFFFFFF

/-- The signed distance of a branch instruction in bytes, from eight bytes past it. -/
def distance (instr : UInt32) : Int :=
  let words : Int := (field instr).toNat
  4 * (if words < 0x800000 then words else words - 0x1000000)

/-- Where a branch instruction at `pos` goes. -/
def destination (instr : UInt32) (pos : Int) : Int :=
  pos + 8 + distance instr

/-- The negated distance of a branch instruction, as 26 bits. -/
def distanceBack (instr : UInt32) : UInt32 :=
  ((0 : UInt32) - (field instr <<< 2)) &&& 0x3FFFFFC

def call (pos target : Nat) : UInt32 :=
  (0xEB000000 : UInt32) ||| field ((UInt32.ofNat target - (UInt32.ofNat pos + 8)) >>> 2)

end BootStage.Arm
