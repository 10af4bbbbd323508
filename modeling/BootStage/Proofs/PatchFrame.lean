import BootStage.PatchSet.ByTitle
import BootStage.Proofs.FixedTables
import BootStage.Proofs.KernelSafety
/-!
# What a patch set touches

A patch set works on a container that was parsed, so its sections lie inside the container. It
is safe there, and changes nothing but the sections and the spans of the table entries that its
title is patched in, also when it fails half-way.
-/

namespace BootStage

/-- `after` is as long as `before`, and differs from it at positions with `R` at most. -/
structure Bytes.ChangedWithin (R : Nat → Prop) (before after : Bytes) : Prop where
  size : after.size = before.size
  kept : ∀ i, ¬R i → after[i]? = before[i]?

structure Firm.ChangedWithin (R : Nat → Prop) (before after : Firm) : Prop where
  header : after.header = before.header
  bytes : before.bytes.ChangedWithin R after.bytes

def Firm.SectionsFit (firm : Firm) : Prop :=
  ∀ slot s, firm.section? slot = some s → s.stop ≤ firm.bytes.size

def Firm.InSection (firm : Firm) (slot i : Nat) : Prop :=
  ∃ s, firm.section? slot = some s ∧ s.start ≤ i ∧ i < s.stop

namespace PatchSet

/-- Position `i` lies under an entry of the table that the plan's title is patched by. -/
def InTable (plan : Plan) (i : Nat) : Prop :=
  ∃ table, Compatibility.table? plan.title plan.showsGbaScreen = some table ∧
    ∃ patch ∈ table.patches, patch.Covers plan.model i

/-- The positions of a container that the patch set of the plan's title may change. -/
def Writable (plan : Plan) (kit : PatchKit) (firm : Firm) (i : Nat) : Prop :=
  match plan.title with
  | .native => firm.InSection 1 i ∨ firm.InSection 2 i
  | .safe => firm.InSection 2 i
  | .twl | .agb => InTable plan i ∨ kit.config.get .developer = 2 ∧ firm.InSection 3 i

end PatchSet

/-! ## Changes of images and containers -/

theorem Bytes.ChangedWithin.refl (R : Nat → Prop) (b : Bytes) : b.ChangedWithin R b :=
  ⟨rfl, fun _ _ => rfl⟩

theorem Bytes.ChangedWithin.overwrite {R : Nat → Prop} {before after : Bytes} {pos : Nat}
    {data : Bytes} (h : before.ChangedWithin R after)
    (hdata : ∀ i, pos ≤ i → i < pos + data.size → R i) :
    before.ChangedWithin R (after.overwrite pos data) := by
  refine ⟨?_, fun i hi => ?_⟩
  · rw [size_overwrite, h.size]
  · have hout : ¬(pos ≤ i ∧ i < pos + data.size ∧ i < after.size) :=
      fun hin => hi (hdata i hin.1 hin.2.1)
    rw [getElem?_overwrite, if_neg hout, h.kept i hi]

theorem Firm.ChangedWithin.refl (R : Nat → Prop) (firm : Firm) : firm.ChangedWithin R firm :=
  ⟨rfl, .refl R firm.bytes⟩

theorem Firm.sectionsFit_of_parse {bytes : Bytes} {firm : Firm}
    (h : Firm.parse bytes = .ok firm) : firm.SectionsFit := by
  intro slot s hs
  obtain ⟨-, -, rfl, hnone⟩ := Firm.parse_eq_ok h
  have hmem : s ∈ (ContainerHeader.read bytes).sectionList := by
    have hslot : slot < 4 := by
      by_cases hlt : slot < 4
      · exact hlt
      · rw [Firm.section?, ContainerHeader.section?, dif_neg hlt] at hs
        cases hs
    exact List.mem_filterMap.2 ⟨slot, List.mem_range.2 hslot, hs⟩
  have hfits := List.findSome?_eq_none_iff.1 hnone s hmem
  split at hfits
  · cases hfits
  · next hle => exact Nat.not_lt.1 hle

/-! ## Edits of a container -/

namespace FirmEdit

variable {α : Type} {R : Nat → Prop} {Q : α → Prop} {firm : Firm}

theorem safe_onBytes {edit : Edit α}
    (hedit : Run.Safe (firm.bytes.ChangedWithin R) edit Q) :
    Run.Safe (firm.ChangedWithin R) (onBytes edit) Q :=
  hedit.onPart (fun _ h => h.bytes) fun _ _ h hbytes => ⟨h.header, hbytes⟩

/-- The section an edit works on is that of the captured header, whatever was changed. -/
theorem safe_onSection {slot : Nat} {target : String} {edit : Section → Edit α}
    (hedit : ∀ s, firm.section? slot = some s →
      Run.Safe (firm.bytes.ChangedWithin R) (Edit.within s.start s.stop (edit s)) Q) :
    Run.Safe (firm.ChangedWithin R) (onSection slot target edit) Q := by
  apply Run.Ensures.get.bind
  intro current hcurrent
  refine (Run.Ensures.orFail (Q := fun s => firm.section? slot = some s) fun s hs => ?_).bind
    fun s hs => safe_onBytes (hedit s hs)
  rw [← hs, Firm.section?, Firm.section?, hcurrent.header]

/-- A section that is edited by itself keeps everything outside it. -/
theorem safe_patching {slot : Nat} {target : String} {edit : Section → Edit α}
    (hfits : firm.SectionsFit) (hin : ∀ i, firm.InSection slot i → R i)
    (hedit : ∀ n s, Edit.Confined n (edit s) Q) :
    Run.Safe (firm.ChangedWithin R) (onSection slot target edit) Q := by
  refine safe_onSection fun s hs => ?_
  have hrange : s.start ≤ s.stop := Nat.le_add_right _ _
  -- The part put back is as long as the section, since a confined edit keeps its size.
  refine Edit.safe_within hrange (fun image himage => ?_) (hedit _ s)
    fun image part himage hpart => himage.overwrite fun i hstart hstop => ?_
  · rw [himage.size]
    exact hfits slot s hs
  · exact hin i ⟨s, hs, hstart, by omega⟩

theorem safe_reading {slot : Nat} {target : String} {edit : Section → Edit α}
    (hfits : firm.SectionsFit) (hedit : ∀ s part, Run.Safe (· = part) (edit s) Q) :
    Run.Safe (firm.ChangedWithin R) (onSection slot target edit) Q := by
  refine safe_onSection fun s hs => ?_
  refine Edit.safe_within_reading (Nat.le_add_right _ _) (fun image himage => ?_) (hedit s)
  rw [himage.size]
  exact hfits slot s hs

end FirmEdit

/-! ## The patch sets -/

theorem FixedPatch.changed_applyAll {R : Nat → Prop} {before image : Bytes} (model : Model)
    (patches : List FixedPatch) (hin : ∀ patch ∈ patches, ∀ i, patch.Covers model i → R i)
    (h : before.ChangedWithin R image) :
    before.ChangedWithin R (applyAll model patches image).2 := by
  -- The entries before one that fails stay written, so the image is not fixed.
  induction patches generalizing image with
  | nil => exact h
  | cons patch rest ih =>
    rw [applyAll, apply_eq, lay]
    rcases Bytes.writeStart_cases image.size (patch.positionOn model) patch.payload.bytes.size with
      ⟨-, hstart⟩ | hstart
    · have hrest := fun p hp => hin p (List.mem_cons_of_mem patch hp)
      rw [hstart]
      refine ih hrest (h.overwrite fun i hge hlt => ?_)
      rw [patch.payload.size_bytes] at hlt
      exact hin patch List.mem_cons_self i ⟨hge, hlt⟩
    · rw [hstart]
      exact h

namespace PatchSet

variable {plan : Plan} {kit : PatchKit} {firm : Firm}

theorem System.safe_rebuildModules (kit : PatchKit) (modules : Bytes) :
    Run.Safe (· = modules) (rebuildModules kit) fun _ => True :=
  (Loader.safe_replace kit.payloads.injector modules).bind fun _ _ =>
    Run.Ensures.emit.bind fun _ _ => .pure True.intro

theorem System.safe_patch {R : Nat → Prop} (hfits : firm.SectionsFit)
    (hin : ∀ i, firm.InSection kernelSlot i ∨ firm.InSection arm9Slot i → R i) :
    Run.Safe (firm.ChangedWithin R) (patch plan kit) fun _ => True := by
  refine (FirmEdit.safe_patching hfits (fun i hi => hin i (.inr hi)) fun n s =>
    confined_patchArm9 plan kit s.address).bind fun _ _ => ?_
  refine (FirmEdit.safe_patching hfits (fun i hi => hin i (.inl hi)) fun n s =>
    confined_patchKernel kit).bind fun _ _ => ?_
  refine (FirmEdit.safe_reading hfits fun s part => safe_rebuildModules kit part).bind
    fun modules _ => ?_
  exact Run.Ensures.emit.bind fun _ _ => .pure True.intro

theorem Recovery.safe_patch {R : Nat → Prop} (hfits : firm.SectionsFit)
    (hin : ∀ i, firm.InSection arm9Slot i → R i) :
    Run.Safe (firm.ChangedWithin R) (patch plan kit) fun _ => True :=
  (FirmEdit.safe_patching hfits hin fun _ s => confined_patchArm9 plan kit s.address).bind
    fun _ _ => .emit

theorem Compatibility.safe_writeTable {R : Nat → Prop} {before : Bytes} (table : Table)
    (model : Model) (hin : ∀ patch ∈ table.patches, ∀ i, patch.Covers model i → R i) :
    Run.Safe (before.ChangedWithin R) (writeTable table model) fun _ => True := by
  refine Run.Ensures.bind (Q := fun _ => True) (.ofStep fun image himage => ?_) fun _ _ => .emit
  exact ⟨FixedPatch.changed_applyAll model table.patches hin himage, fun _ _ => True.intro⟩

theorem Compatibility.safe_patch {R : Nat → Prop} (hfits : firm.SectionsFit)
    (htable : ∀ i, InTable plan i → R i)
    (harm9 : ∀ i, kit.config.get .developer = 2 ∧ firm.InSection plan.title.arm9Slot i → R i) :
    Run.Safe (firm.ChangedWithin R) (patch plan kit) fun _ => True := by
  unfold patch
  cases hfound : table? plan.title plan.showsGbaScreen with
  | none => exact .pure True.intro
  | some table =>
    have hwrite : Run.Safe (firm.bytes.ChangedWithin R) (writeTable table plan.model)
        fun _ => True :=
      safe_writeTable table plan.model fun p hp i hi => htable i ⟨table, hfound, p, hp, hi⟩
    have hswap : Run.Safe (firm.ChangedWithin R)
        (if kit.swapsUnitType then
          FirmEdit.onSection plan.title.arm9Slot "ARM9 section" fun _ => kit.swapUnitType
          else pure PUnit.unit) fun _ => True := by
      refine .ite (fun hswaps => ?_) fun _ => .pure True.intro
      refine FirmEdit.safe_patching hfits (fun i hi => harm9 i ⟨of_decide_eq_true hswaps, hi⟩) ?_
      exact fun n _ => kit.confined_swapUnitType
    refine .ite (fun _ => ?_) fun _ => ?_
    · exact Run.Ensures.emit.bind fun _ _ => hswap
    · exact (FirmEdit.safe_onBytes hwrite).bind fun _ _ => hswap

/-- The patch set of a plan's title is safe on containers whose sections fit, changes what it may
only, and gives a module section for the system firmware alone. -/
theorem safe_apply (plan : Plan) (kit : PatchKit) (hfits : firm.SectionsFit) :
    Run.Safe (firm.ChangedWithin (Writable plan kit firm)) (apply plan kit)
      fun modules => modules.isSome ↔ plan.title = .native := by
  unfold apply
  cases htitle : plan.title with
  | native =>
    have hin : ∀ i, firm.InSection 1 i ∨ firm.InSection 2 i → Writable plan kit firm i := by
      intro i hi
      rw [Writable, htitle]
      exact hi
    exact (System.safe_patch hfits hin).map fun _ _ => ⟨fun _ => rfl, fun _ => rfl⟩
  | safe =>
    have hin : ∀ i, firm.InSection 2 i → Writable plan kit firm i := by
      intro i hi
      rw [Writable, htitle]
      exact hi
    exact (Recovery.safe_patch hfits hin).map fun _ _ => ⟨nofun, nofun⟩
  | twl | agb =>
    have hin : ∀ i, InTable plan i ∨ kit.config.get .developer = 2 ∧ firm.InSection 3 i →
        Writable plan kit firm i := by
      intro i hi
      rw [Writable, htitle]
      exact hi
    refine (Compatibility.safe_patch hfits (fun i hi => hin i (.inl hi)) ?_).map
      fun _ _ => ⟨nofun, nofun⟩
    intro i hi
    rw [htitle] at hi
    exact hin i (.inr hi)

/-- A container with four bytes in section 2. -/
def oneSection : Bytes :=
  let blank : Bytes := Array.replicate 0x204 0
  ((blank.overwrite 0 ContainerHeader.magic).overwrite 0xA0 (.ofWord 0x200)).overwrite 0xA8
    (.ofWord 4)

theorem parse_oneSection :
    Firm.parse oneSection = .ok ⟨ContainerHeader.read oneSection, oneSection⟩ :=
  Firm.parse_of_sound (by decide +kernel) (by decide +kernel) (by decide +kernel)

/-- A recovery boot with nothing injected. -/
def recoveryPlan : Plan :=
  .starting ⟨0, 0, .recovery, .old, false, .empty⟩

def emptyKit : PatchKit :=
  ⟨⟨#[], #[], #[], { code := #[] }, #[]⟩, none, none, .empty, false⟩

end PatchSet
end BootStage
