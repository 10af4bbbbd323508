import BootStage.Bytes.Write
import BootStage.Run
/-!
# Accesses by machine words

Positions as the machine has them: words whose sums wrap around, and displacements that are added by
their bit patterns. A write tests both of its sums, then its range, and changes the image in place.
-/

namespace BootStage

/-- A position in an image as a word of the machine. -/
abbrev Position := UInt64

namespace Position

/-- The position `offset` away from `base`, if there is one. An offset is added by its bit pattern,
so the sum has to wrap around for one below zero and must not for any other. -/
def displaced? (base : Position) (offset : Int64) : Option Position :=
  let sum := base + offset.toUInt64
  if sum < base ↔ offset < 0 then some sum else none

def advanced? (start len : Position) : Option Position :=
  let sum := start + len
  if sum < start then none else some sum

end Position

namespace Bytes

/-- Copies `data` onto the bytes `start ≤ i < stop`, if they are a range of the image. A range of
another length than the data would stop the run. -/
def copyOnto (start stop : Position) (data : Bytes) (failure : WriteFailure) :
    Run Empty WriteFailure Bytes Unit := do
  let image ← get
  let target ← Run.orFail (image.range? start.toNat stop.toNat) failure
  if target.size = data.size then set (image.overwrite start.toNat data) else Run.outOfRange

def store (base : Position) (offset : Int64) (data : Bytes) :
    Run Empty WriteFailure Bytes Unit := do
  let failure : WriteFailure := ⟨base.toNat, offset.toInt, data.size, (← get).size⟩
  let start ← Run.orFail (base.displaced? offset) failure
  let stop ← Run.orFail (start.advanced? (.ofNat data.size)) failure
  copyOnto start stop data failure

def storeWord (pos : Position) (value : UInt32) : Run Empty WriteFailure Bytes Unit :=
  store pos 0 (ofWord value)

def loadWord? (b : Bytes) (pos : Position) : Option UInt32 := do
  let rest ← b.range? pos.toNat b.size
  if 4 ≤ rest.size then some (rest.word 0) else none

end Bytes
end BootStage
