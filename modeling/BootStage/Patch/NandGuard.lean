import BootStage.Patch.Edit
/-!
# NAND write guard

Firmware writes to the NAND pass one check that comes shortly before the name of a service.
With the check forced to fail no caller can overwrite the firmware partitions.
-/

namespace BootStage.NandGuard

def target : String := "NAND write check"

def serviceName : Bytes := .ofAscii "exe:"

/-- `cmp r0, #0; bgt` -/
def check : Bytes := #[0x00, 0x28, 0x01, 0xDA]

/-- `movs r0, #0; nop` -/
def refusal : Bytes := #[0x00, 0x20, 0xC0, 0x46]

/-- The check comes at most this far before the service name. -/
def windowSize : Nat := 0x100

/-- Makes the check fail for every caller. -/
def block : Edit Unit := do
  let service ← Edit.locate target serviceName
  let start := service - windowSize
  let window ← Edit.slice start service
  let found ← Run.orFail (window.occurrence? check) (.missing target)
  Edit.write target (start + found) refusal
  Run.emit (.nandWritesBlocked (start + found))

end BootStage.NandGuard
