import BootStage.PatchSet.Compatibility
import BootStage.PatchSet.Recovery
import BootStage.PatchSet.System
/-!
# Patch sets

Each firmware title has a patch set. A target that cannot be found aborts the boot.
-/

namespace BootStage.PatchSet

/-- Applies the patch set of the plan's title. Gives the module section where it was rebuilt
and has to be placed by itself. -/
def apply (plan : Plan) (kit : PatchKit) : FirmEdit (Option Bytes) :=
  match plan.title with
  | .native => some <$> System.patch plan kit
  | .safe => (fun _ => none) <$> Recovery.patch plan kit
  | .twl | .agb => (fun _ => none) <$> Compatibility.patch plan kit

end BootStage.PatchSet
