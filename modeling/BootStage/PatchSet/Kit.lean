import BootStage.Kernel.ServiceCall
import BootStage.Patch.PatternPatch
/-!
# What a patch set works with

The plan says which firmware is patched; everything else that decides how is the kit.
-/

namespace BootStage

structure Payloads where
  /-- Runs the boot stage again on a relaunch; has an `OPEN` placeholder. -/
  reboot : Bytes
  /-- Redirects NAND accesses; has `NAND`, `NCSD` and `SDMC` placeholders. -/
  redirect : Bytes
  /-- Takes the place of the loader module. -/
  injector : Bytes
  /-- Identifies the boot stage to programs; has a tagged information block. -/
  info : ServiceCall.Info.Stub
  /-- Lifts the access checks of builtin modules. -/
  moduleHook : Bytes
  deriving DecidableEq, Repr

/-- What besides the plan decides how a firmware is patched. -/
structure PatchKit where
  payloads : Payloads
  /-- Image that NAND accesses go to, if not to the built-in NAND. -/
  location : Option ImageLocation
  /-- Version of an installed title. An image from the card has none and counts as newer than
  any. -/
  version : Option UInt32
  config : Config
  developmentUnit : Bool
  deriving DecidableEq, Repr

namespace PatchKit

def isAtLeast (kit : PatchKit) (version : UInt32) : Bool :=
  match kit.version with
  | some found => version ≤ found
  | none => true

/-- The developer option that swaps the unit type. -/
def swapsUnitType (kit : PatchKit) : Bool :=
  kit.config.get .developer = 2

/-- Makes the firmware report the other unit type: retail units get development features, and
development units run retail software. -/
def unitTypePatch (kit : PatchKit) : PatternPatch where
  name := "UNITINFO value"
  pattern := #[0x01, 0x10, 0xA0, 0x13]
  offset := 0
  replacement :=
    if kit.developmentUnit then #[0x00, 0x10, 0xA0, 0xE3] else #[0x01, 0x10, 0xA0, 0xE3]

def swapUnitType (kit : PatchKit) : Edit Unit := do
  if kit.swapsUnitType then
    let _ ← kit.unitTypePatch.require

end PatchKit
end BootStage
