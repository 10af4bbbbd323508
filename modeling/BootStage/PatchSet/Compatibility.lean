import BootStage.Patch.FixedPatch
import BootStage.PatchSet.Kit
/-!
# The backwards-compatibility firmwares

The DS and GBA firmwares hardly ever change, so they are patched at fixed offsets of the
container.
-/

namespace BootStage.PatchSet.Compatibility

/-- `movs r0, #0; add sp, #0x138; pop {r4-r6, pc}` -/
def zeroResult : Bytes := #[0x00, 0x20, 0x4E, 0xB0, 0x70, 0xBD]

/-- Signature, region and blacklist checks of the DS firmware. -/
def dsPatches : List FixedPatch := [
  ⟨0x1650C0, 0x165D64, .block zeroResult⟩,
  ⟨0x173A0E, 0x17474A, .half 0x2001⟩,
  ⟨0x174802, 0x17553E, .halfZeroTail 0x2000⟩,
  ⟨0x174964, 0x1756A0, .halfZeroTail 0x2000⟩,
  ⟨0x174D52, 0x175A8E, .halfZeroTail 0x2001⟩,
  ⟨0x174D5E, 0x175A9A, .halfZeroTail 0x2001⟩,
  ⟨0x174D6A, 0x175AA6, .halfZeroTail 0x2001⟩,
  ⟨0x174E56, 0x175B92, .half 0x2001⟩,
  ⟨0x174E58, 0x175B94, .half 0x4770⟩]

def gbaSignaturePatch : FixedPatch := ⟨0x9D2A8, 0x9DF64, .block zeroResult⟩

/-- Lets the GBA boot screen be shown. -/
def gbaScreenPatch : FixedPatch := ⟨0xD7A12, 0xD8B8A, .half 0xEF26⟩

/-- A patch table with its name, and the oldest Old-model version it was made for. -/
structure Table where
  name : String
  since : UInt32
  patches : List FixedPatch
  deriving DecidableEq, Repr

def table? (title : Title) (showsGbaScreen : Bool) : Option Table :=
  match title with
  | .twl => some ⟨"TWL_FIRM table", 0x16, dsPatches⟩
  | .agb =>
    let patches :=
      if showsGbaScreen then [gbaSignaturePatch, gbaScreenPatch] else [gbaSignaturePatch]
    some ⟨"AGB_FIRM table", 0x0B, patches⟩
  | .native | .safe => none

def writeTable (table : Table) (model : Model) : Edit Unit := do
  Run.ofStep fun image =>
    let (result, image) := FixedPatch.applyAll model table.patches image
    (result.mapError (PatchFailure.outside table.name), image)
  Run.emit (.tableApplied table.name table.patches.length)

/-- Patches the container in place, unless an Old-model version predates its table. -/
def patch (plan : Plan) (kit : PatchKit) : FirmEdit Unit := do
  if let some table := table? plan.title plan.showsGbaScreen then
    if plan.model = .old ∧ ¬kit.isAtLeast table.since then
      Run.emit (.tableSkipped table.name kit.version)
    else
      FirmEdit.onBytes (writeTable table plan.model)
    if kit.swapsUnitType then
      FirmEdit.onSection plan.title.arm9Slot "ARM9 section" fun _ => kit.swapUnitType

end BootStage.PatchSet.Compatibility
