import BootStage.Bytes.Search
import BootStage.Patch.Arm
import BootStage.Patch.Edit
/-!
# Kernel layout

The ARM11 kernel is section 1 of a container, loaded at a fixed base. Its exception page holds
the vectors; the vector of service calls leads to the handler, and the handler's literals end
in the table of service calls, whose first entry is null.
-/

namespace BootStage

/-- Kernel structures, as positions in section 1. -/
structure Kernel where
  page : Nat
  handler : Nat
  /-- First entry of the service call table. -/
  table : Nat
  deriving DecidableEq, Repr

namespace Kernel

/-- Virtual address of the section. -/
def base : UInt32 := 0xFFF00000

def vectors : UInt32 := 0xFFFF0000

def pageBytes : Nat := 0x1000

def target : String := "ARM11 exception page"

/-- `ldr r11, [r12]`, in the exception page. -/
def pagePattern : Bytes := #[0x00, 0xB0, 0x9C, 0xE5]

/-- Distance from the pattern back to the start of the page. -/
def pageBack : Nat := 0x2C

def slot (kernel : Kernel) (number : Nat) : Nat :=
  kernel.table + 4 * number

/-- First position from `pos` on, in steps of a word, whose word satisfies `accept`. -/
def scan (accept : UInt32 → Bool) (code : Bytes) (pos : Nat) : Option Nat :=
  if pos + 4 ≤ code.size then
    if accept (code.word pos) then some pos else scan accept code (pos + 4)
  else none
termination_by code.size - pos

/-- Position of the handler's address, as the branch in the service call vector gives it. -/
def handlerPointer (branch : UInt32) : Nat :=
  (vectors + 8 - (Arm.distanceBack branch - 8) - base + 8).toNat

def locate (code : Bytes) : Except PatchFailure Kernel := do
  let some page := code.anchor? pagePattern pageBack | throw (.missing target)
  let some branch := code.word? (page + 8) | throw (.malformed target "truncated SVC vector")
  let some address := code.word? (handlerPointer branch)
    | throw (.malformed target "SVC handler outside section")
  let handler := (address - base).toNat
  let some table := scan (· == 0) code handler
    | throw (.malformed target "SVC table has no null entry")
  return { page, handler, table }

def find : Edit Kernel := do
  let kernel ← Run.ofExcept (locate (← get))
  Run.emit (.kernelFound kernel.page kernel.handler kernel.table)
  return kernel

end Kernel
end BootStage
