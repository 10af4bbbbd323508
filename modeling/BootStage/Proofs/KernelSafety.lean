import BootStage.PatchSet.Recovery
import BootStage.PatchSet.System
import BootStage.Proofs.EditSafety
/-!
# Confined edits of the kernel

The same for the kernel section together with its free space: every step is safe and keeps the
size of the section, wherever the pointers that were followed lead and however little space is
left.
-/

namespace BootStage

namespace KernelEdit

variable {α : Type} {n : Nat}

/-- The edit is safe on kernel sections of `n` bytes and keeps their size. -/
abbrev Confined (n : Nat) (edit : KernelEdit α) (Q : α → Prop) : Prop :=
  Run.Safe (fun image : KernelImage => image.code.size = n) edit Q

theorem confined_onCode {edit : Edit α} {Q : α → Prop} (hedit : edit.Confined n Q) :
    Confined n (onCode edit) Q :=
  hedit.onPart (fun _ hsize => hsize) fun _ _ _ hkept => hkept

theorem confined_within (arena : Arena) {edit : KernelEdit α} {Q : α → Prop}
    (hedit : Confined n edit Q) : Edit.Confined n (within arena edit) Q :=
  hedit.onPart (fun _ hsize => hsize) fun _ _ _ hkept => hkept

theorem confined_place (target : String) (code : Bytes) :
    Confined n (place target code) fun _ => True := by
  refine Run.Ensures.get.bind fun image _ => .ite (fun _ => ?_) fun _ => .throw
  apply (confined_onCode (Edit.confined_write target _ code)).bind
  intro _ _
  refine Run.Ensures.bind (Q := fun _ => True) ?_ fun _ _ => .pure True.intro
  exact .modify fun _ hsize => hsize

end KernelEdit

theorem Kernel.confined_find {n : Nat} : Edit.Confined n find fun _ => True :=
  Run.Ensures.get.bind fun _ _ =>
    Run.Ensures.ofExcept_any.bind fun _ _ =>
      Run.Ensures.emit.bind fun _ _ => .pure True.intro

namespace ServiceCall

variable {n : Nat}

theorem confined_point (target : String) (kernel : Kernel) (number pos : Nat) :
    Edit.Confined n (point target kernel number pos) fun _ => True :=
  (Edit.confined_writeWord target _ _).forget

theorem Backdoor.confined_install (kernel : Kernel) :
    KernelEdit.Confined n (install kernel) fun _ => True := by
  apply Run.Ensures.get.bind
  intro _ _
  apply Run.Ensures.orFail_any.bind
  intro current _
  refine .ite (fun _ => ?_) fun _ => ?_
  · apply (KernelEdit.confined_place target code).bind
    intro pos _
    refine (KernelEdit.confined_onCode (confined_point target kernel number pos)).bind
      fun _ _ => ?_
    exact Run.Ensures.emit.bind fun _ _ => .pure True.intro
  · exact Run.Ensures.emit.bind fun _ _ => .pure True.intro

/-- The block is looked for in the stub, so the stub does not end before it. -/
theorem Info.confined_blockOffset (stub : Bytes) :
    KernelEdit.Confined n (blockOffset stub) fun _ => True := by
  refine (Run.Ensures.orFail (Q := fun offset => offset ≤ stub.size) fun offset hoffset => ?_).bind
    fun offset hinside => ?_
  · have hfits := Bytes.occurrence?_fits hoffset
    omega
  rw [Bytes.range?_eq_some hinside (Nat.le_refl _)]
  exact .ite (fun _ => .throw) fun _ => .pure True.intro

theorem Info.confined_install (kernel : Kernel) (stub : Stub) (config : Config) :
    KernelEdit.Confined n (install kernel stub config) fun _ => True := by
  apply (confined_blockOffset stub.code).bind
  intro offset _
  apply (KernelEdit.confined_place target stub.code).bind
  intro pos _
  have hfill : Edit.Confined n
      (do
        Edit.write target (pos + offset) (block config stub.build)
        point target kernel number pos) fun _ => True :=
    (Edit.confined_write target _ _).bind fun _ _ => confined_point target kernel number pos
  exact (KernelEdit.confined_onCode hfill).bind fun _ _ => .emit

theorem CallAccess.confined_lift (kernel : Kernel) :
    Edit.Confined n (lift kernel) fun _ => True := by
  apply Run.Ensures.get.bind
  intro _ _
  apply Run.Ensures.orFail_any.bind
  intro pos _
  exact (Edit.confined_writeWord target pos granted).bind fun _ _ => .emit

theorem ModuleUnpacking.confined_install (hook : Bytes) :
    KernelEdit.Confined n (install hook) fun _ => True := by
  apply Run.Ensures.get.bind
  intro image _
  cases image.code.occurrence? pattern with
  | none => exact Run.Ensures.emit.bind fun _ _ => .pure True.intro
  | some site =>
    apply (KernelEdit.confined_place target hook).bind
    intro pos _
    refine (KernelEdit.confined_onCode (Edit.confined_writeWord target site _)).bind
      fun _ _ => ?_
    exact Run.Ensures.emit.bind fun _ _ => .pure True.intro

end ServiceCall

/-! ## The patches of a section -/

namespace PatchSet

variable {n : Nat}

theorem System.confined_patchServiceCalls (kit : PatchKit) (kernel : Kernel) :
    KernelEdit.Confined n (patchServiceCalls kit kernel) fun _ => True := by
  apply (ServiceCall.Backdoor.confined_install kernel).bind
  intro _ _
  apply (ServiceCall.Info.confined_install kernel _ _).bind
  intro _ _
  refine .ite (fun _ => ?_) fun _ => .pure True.intro
  refine (KernelEdit.confined_onCode (ServiceCall.CallAccess.confined_lift kernel)).bind
    fun _ _ => ?_
  exact (ServiceCall.ModuleUnpacking.confined_install _).bind fun _ _ => .pure True.intro

theorem System.confined_patchKernel (kit : PatchKit) :
    Edit.Confined n (patchKernel kit) fun _ => True := by
  refine Kernel.confined_find.bind fun kernel _ => Run.Ensures.get.bind fun _ _ => ?_
  apply Run.Ensures.ofExcept_any.bind
  intro arena _
  exact KernelEdit.confined_within arena (confined_patchServiceCalls kit kernel)

theorem System.confined_patchChecks (plan : Plan) :
    Edit.Confined n (patchChecks plan) fun _ => True := by
  refine .guarded (a := ()) (fun _ => NandGuard.confined_block) fun _ => ?_
  apply signaturePatch.confined_require.bind
  intro _ _
  exact headerSignaturePatch.confined_require.bind fun _ _ => .pure True.intro

theorem System.confined_patchAccess (plan : Plan) (kit : PatchKit) {p9 : Process9}
    (address : UInt32) (hstop : p9.stop ≤ n) :
    Edit.Confined n (patchAccess plan kit p9 address) fun _ => True := by
  have hchecks := p9.confined_onCode hstop fun size => confined_patchChecks (n := size) plan
  unfold patchAccess
  cases kit.location with
  | none => exact hchecks
  | some location => exact Redirect.confined_installAround address _ location hstop hchecks

theorem System.confined_patchArm9 (plan : Plan) (kit : PatchKit) (address : UInt32) :
    Edit.Confined n (patchArm9 plan kit address) fun _ => True := by
  apply Process9.confined_locate.bind
  intro p9 hstop
  apply (confined_patchAccess plan kit address hstop).bind
  intro _ _
  apply (p9.confined_onCode hstop fun _ => RebootHook.confined_install _ _).bind
  intro _ _
  have hversion := p9.confined_onCode hstop fun _ => installVersionPatch.confined_apply
  have haccess := p9.confined_onCode hstop fun _ => accessPatch.confined_require
  refine .ite (fun _ => hversion.bind fun _ _ => ?_) fun _ => ?_
  all_goals
    apply kit.confined_swapUnitType.bind
    intro _ _
    exact .ite (fun _ => haccess.bind fun _ _ => .pure True.intro) fun _ => .pure True.intro

theorem Recovery.confined_guardWrites (plan : Plan) :
    Edit.Confined n (guardWrites plan) fun _ => True := by
  refine .ite (fun _ => .pure True.intro) fun _ => ?_
  cases plan.model with
  | new => exact NandGuard.confined_block
  | old => exact oldGuardPatch.confined_require.bind fun _ _ => .pure True.intro

theorem Recovery.confined_patchArm9 (plan : Plan) (kit : PatchKit) (address : UInt32) :
    Edit.Confined n (patchArm9 plan kit address) fun _ => True := by
  have hguard := confined_guardWrites (n := n) plan
  unfold patchArm9
  cases kit.location with
  | none => exact hguard
  | some location =>
    apply Process9.confined_locate.bind
    intro p9 hstop
    exact Redirect.confined_installAround address _ location hstop hguard

end PatchSet
end BootStage
