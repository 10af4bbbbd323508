import BootStage.Proofs.BareFirmware
import BootStage.Proofs.PatchFrame
/-!
# Containers that were patched

Whatever the plan and the kit, a container that was parsed keeps its shape under the patch set of
its title, and the patch set comes to a value or to a failure of the patch it stopped at.
-/

namespace BootStage.PatchSet

open BareFirmware in
theorem apply_bareFirmware :
    Firm.parse (image filler) = .ok (firm filler) ∧
      (apply found.plan kit (firm filler)).result = .ok (some (modules.splice 0 0x200 #[])) :=
  ⟨parse_image Array.size_replicate, apply_firm Array.size_replicate⟩

/-- Whether it succeeds or fails, a patch set keeps the header and the length of the container,
and changes no byte outside the sections and table spans of its title. Only the system firmware
has its module section rebuilt. -/
theorem apply_frame (plan : Plan) (kit : PatchKit) {bytes : Bytes} {firm : Firm}
    (h : Firm.parse bytes = .ok firm) :
    firm.ChangedWithin (Writable plan kit firm) (apply plan kit firm).state ∧
      ∀ modules, (apply plan kit firm).result = .ok modules →
        (modules.isSome ↔ plan.title = .native) := by
  have hsafe := safe_apply plan kit (Firm.sectionsFit_of_parse h) firm (.refl _ firm)
  refine ⟨hsafe.1, fun modules hok => ?_⟩
  have hends := hsafe.2
  rw [hok] at hends
  exact hends

open BareFirmware in
theorem apply_frame_bareFirmware :
    ∃ rebuilt, (apply found.plan kit (firm filler)).result = .ok (some rebuilt) ∧
      (firm filler).ChangedWithin (Writable found.plan kit (firm filler))
        (apply found.plan kit (firm filler)).state ∧
      ((some rebuilt).isSome ↔ found.plan.title = .native) := by
  obtain ⟨hparse, hpatched⟩ := apply_bareFirmware
  obtain ⟨hframe, hrebuilt⟩ := apply_frame found.plan kit hparse
  exact ⟨_, hpatched, hframe, hrebuilt _ hpatched⟩

/-- No patch set uses a range outside the bytes it works on: whatever it does not find and
whatever does not fit is reported as a failure. -/
theorem apply_in_range (plan : Plan) (kit : PatchKit) {bytes : Bytes} {firm : Firm}
    (h : Firm.parse bytes = .ok firm) :
    (∃ modules, (apply plan kit firm).result = .ok modules) ∨
      ∃ err : PatchFailure, (apply plan kit firm).result = .error (.failed err) := by
  have hsafe := safe_apply plan kit (Firm.sectionsFit_of_parse h) firm (.refl _ firm)
  rcases hsafe.2.cases with ⟨modules, hok, -⟩ | ⟨err, herr⟩
  · exact .inl ⟨modules, hok⟩
  · exact .inr ⟨err, herr⟩

open BareFirmware in
theorem apply_in_range_bareFirmware :
    ∃ rebuilt, (apply found.plan kit (firm filler)).result = .ok (some rebuilt) ∧
      ((∃ modules, (apply found.plan kit (firm filler)).result = .ok modules) ∨
        ∃ err : PatchFailure, (apply found.plan kit (firm filler)).result = .error (.failed err)) :=
  ⟨_, apply_bareFirmware.2, apply_in_range found.plan kit apply_bareFirmware.1⟩

end BootStage.PatchSet
