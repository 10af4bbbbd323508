import BootStage.Machine.Basic
/-!
# The hand-over

The sections of the patched firmware are copied to where they run. After a cold boot the
second core is asked to power the displays down; then it is given its entrypoint, and the
ARM9 jumps to its own.
-/

namespace BootStage.HandOver

variable {ε : Type}

/-- First section to copy. The module section of the system firmware is rebuilt, and placed by
itself. -/
def firstSlot : Title → Nat
  | .native => 1
  | .twl | .agb | .safe => 0

def place (index : Nat) (address : UInt32) (data : Bytes) : Run Notice ε Machine Unit := do
  Run.emit (.sectionPlaced index data.size address)
  modify (·.copy address data)

def sections (firm : Firm) (title : Title) : List Section :=
  firm.header.sectionList.filter (firstSlot title ≤ ·.index)

/-- Makes the second core ready for its new entrypoint, and gives the cell it polls. -/
def releaseCell : BootKind → Run Notice ε Machine UInt32
  | .cold => do
    Machine.post .powerDownScreens []
    Machine.awaitReady
    return Cell.stubEntry
  | .relaunch => return Cell.relaunchEntry

/-- Copies a firmware to its place and starts the second core. -/
def release (firm : Firm) (plan : Plan) : Run Notice ε Machine Unit := do
  (sections firm plan.title).forM fun s => place s.index s.address (firm.payload s)
  let cell ← releaseCell plan.kind
  modify fun m => (m.setWord cell firm.header.arm11Entry).flush
  Run.emit (.launching plan.title firm.header.arm9Entry firm.header.arm11Entry)

def launch (firm : Firm) (plan : Plan) : Run Notice ε Machine Unit := do
  release firm plan
  modify (·.jump firm.header.arm9Entry plan.launched)

end BootStage.HandOver
