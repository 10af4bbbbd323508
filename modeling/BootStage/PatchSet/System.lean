import BootStage.Kernel.ServiceCall
import BootStage.Patch.Loader
import BootStage.Patch.NandGuard
import BootStage.Patch.Process9
import BootStage.Patch.RebootHook
import BootStage.Patch.Redirect
import BootStage.PatchSet.Kit
/-!
# The system firmware

The code of the system firmware moves between versions, so its patches search for their
targets. The order counts, since later searches meet what earlier patches wrote.
-/

namespace BootStage.PatchSet.System

def moduleSlot : Nat := 0

def kernelSlot : Nat := 1

def arm9Slot : Nat := 2

def signaturePatch : PatternPatch where
  name := "signature check"
  pattern := #[0xC0, 0x1C, 0x76, 0xE7]
  offset := 0
  replacement := #[0x00, 0x20]

def headerSignaturePatch : PatternPatch where
  name := "header signature check"
  pattern := #[0xB5, 0x22, 0x4D, 0x0C]
  offset := -2
  replacement := #[0x00, 0x20, 0x70, 0x47]

/-- Lets titles of any version be installed. -/
def installVersionPatch : PatternPatch where
  name := "title install minimum version"
  pattern := #[0x0A, 0x81, 0x42, 0x02]
  offset := 4
  replacement := #[0xE0]

/-- First version whose version check has the shape searched for. -/
def installVersionSince (model : Model) : UInt32 :=
  model.choose 0x52 0x21

/-- Lifts the check of a process's service access list; the function starts 14 bytes ahead. -/
def accessPatch : PatternPatch where
  name := "Process9 access checks"
  pattern := #[0xE0, 0x00, 0x40, 0x39, 0x08, 0x58]
  offset := -14
  replacement := #[0x01, 0x20, 0x70, 0x47]

/-- Blocks firmware writes where the plan asks for it, and lifts the signature checks. -/
def patchChecks (plan : Plan) : Edit Unit := do
  if plan.guard ≠ .off then NandGuard.block
  let _ ← signaturePatch.require
  let _ ← headerSignaturePatch.require

/-- Patches the checks, and redirects NAND accesses where an image is used. -/
def patchAccess (plan : Plan) (kit : PatchKit) (p9 : Process9) (address : UInt32) : Edit Unit :=
  let checks := p9.onCode (patchChecks plan)
  match kit.location with
  | none => checks
  | some location =>
    Redirect.installAround address p9 kit.payloads.redirect location checks

def patchArm9 (plan : Plan) (kit : PatchKit) (address : UInt32) : Edit Unit := do
  let p9 ← Process9.locate
  patchAccess plan kit p9 address
  p9.onCode (RebootHook.install p9.address kit.payloads.reboot)
  if kit.isAtLeast (installVersionSince plan.model) then
    let _ ← p9.onCode installVersionPatch.apply
  kit.swapUnitType
  if kit.config.isOn .liftAccess then
    let _ ← p9.onCode accessPatch.require

def patchServiceCalls (kit : PatchKit) (kernel : Kernel) : KernelEdit Unit := do
  let _ ← ServiceCall.Backdoor.install kernel
  ServiceCall.Info.install kernel kit.payloads.info kit.config
  if kit.config.isOn .liftAccess then
    KernelEdit.onCode (ServiceCall.CallAccess.lift kernel)
    let _ ← ServiceCall.ModuleUnpacking.install kit.payloads.moduleHook

def patchKernel (kit : PatchKit) : Edit Unit := do
  let kernel ← Kernel.find
  let arena ← Run.ofExcept (Arena.locate (← get) kernel)
  KernelEdit.within arena (patchServiceCalls kit kernel)

/-- The module section with its loader replaced. It no longer fits the container. -/
def rebuildModules (kit : PatchKit) : Edit Bytes := do
  let injector := kit.payloads.injector
  let (rebuilt, start, size) ← Loader.replace injector
  Run.emit (.loaderReplaced start size injector.size)
  return rebuilt

/-- Patches the container in place and gives the section that has to be placed by itself. -/
def patch (plan : Plan) (kit : PatchKit) : FirmEdit Bytes := do
  FirmEdit.onSection arm9Slot "ARM9 section" fun s => patchArm9 plan kit s.address
  FirmEdit.onSection kernelSlot "ARM11 section" fun _ => patchKernel kit
  let modules ← FirmEdit.onSection moduleSlot "sysmodule section" fun _ => rebuildModules kit
  Run.emit .nativePatched
  return modules

end BootStage.PatchSet.System
