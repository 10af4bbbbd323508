import BootStage.Patch.Arm
import BootStage.Patch.Edit
/-!
# Reboot hook

Process9 relaunches firmware in one routine. The hook is copied over it, so that the boot
stage runs again instead of the installed firmware. The routine starts with a call to the
file-open function; the hook gets that function's address.
-/

namespace BootStage.RebootHook

def target : String := "firmlaunch reboot hook"

/-- Stands in the relaunch routine. -/
def pattern : Bytes := #[0xE2, 0x20, 0x20, 0x90]

def back : Nat := 0x13

/-- Stands in the hook where the file-open function's address goes. -/
def placeholder : Bytes := .ofAscii "OPEN"

/-- Thumb address that the call at `pos` goes to, in code that runs at `address`. -/
def openAddress (instr : UInt32) (pos : Nat) (address : UInt32) : UInt32 :=
  UInt32.ofNat pos + 9 - Arm.distanceBack instr + address

/-- Copies `hook` over the relaunch routine of Process9 code that runs at `address`. -/
def install (address : UInt32) (hook : Bytes) : Edit Unit := do
  let pos ← Run.orFail ((← get).anchor? pattern back) (.missing target)
  let instr ← Run.orFail ((← get).word? pos) (.missing target)
  let opener := openAddress instr pos address
  Edit.write target pos hook
  Edit.within pos (pos + hook.size) do
    let word ← Edit.locate "reboot OPEN placeholder" placeholder
    Edit.writeWord target word opener
  Run.emit (.rebootHooked pos opener)

end BootStage.RebootHook
