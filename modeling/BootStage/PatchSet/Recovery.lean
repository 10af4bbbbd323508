import BootStage.Patch.NandGuard
import BootStage.Patch.Process9
import BootStage.Patch.Redirect
import BootStage.PatchSet.Kit
/-!
# The recovery firmware

The recovery firmware is kept from writing the firmware partitions, and redirected to an image
where one is used.
-/

namespace BootStage.PatchSet.Recovery

def arm9Slot : Nat := 2

/-- On Old models the check is `subs r4, r0, #0; blt`; the branch is taken always, after a
forced failure. -/
def oldGuardPatch : PatternPatch where
  name := "SAFE_FIRM NAND write check"
  pattern := #[0x04, 0x1E, 0x1D, 0xDB]
  offset := 0
  replacement := #[0x00, 0x24, 0x1D, 0xE0]

def blockWrites : Model → Edit Unit
  | .new => NandGuard.block
  | .old => do
    let _ ← oldGuardPatch.require

def guardWrites (plan : Plan) : Edit Unit :=
  if plan.guard = .off then pure () else blockWrites plan.model

/-- Patches the ARM9 section, loaded at `address`. What the redirection needs is read before
the write check is changed. -/
def patchArm9 (plan : Plan) (kit : PatchKit) (address : UInt32) : Edit Unit :=
  match kit.location with
  | none => guardWrites plan
  | some location => do
    let p9 ← Process9.locate
    Redirect.installAround address p9 kit.payloads.redirect location (guardWrites plan)

def patch (plan : Plan) (kit : PatchKit) : FirmEdit Unit := do
  FirmEdit.onSection arm9Slot "ARM9 section" fun s => patchArm9 plan kit s.address
  Run.emit .safePatched

end BootStage.PatchSet.Recovery
