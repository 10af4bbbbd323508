import BootStage.Proofs.ContainerViews
import BootStage.Proofs.KernelLayout
import BootStage.Proofs.LoaderReplacement
import BootStage.Proofs.PatchFrame
/-!
# Where the patches of the system firmware apply

The patch set applies where the patches of its three sections do, if no two of them share a byte:
what is made of one section then does not depend on the others. What each of them needs is to find
the structures it works on. A patch set that applied has left in the kernel section what the patches
of the kernel made of it.
-/

namespace BootStage

def Section.ApartFrom (s t : Section) : Prop :=
  s.stop ≤ t.start ∨ t.stop ≤ s.start

/-! ## Changes of one section -/

namespace Firm.ChangedWithin

variable {R : Nat → Prop} {before after : Firm} {slot : Nat} {s t : Section}

theorem section? (h : before.ChangedWithin R after) (slot : Nat) :
    after.section? slot = before.section? slot :=
  congrArg (·.section? slot) h.header

theorem sectionsFit (h : before.ChangedWithin R after) (hfits : before.SectionsFit) :
    after.SectionsFit := by
  intro slot s hs
  rw [h.section?] at hs
  rw [h.bytes.size]
  exact hfits slot s hs

theorem payload_of_apart (h : before.ChangedWithin (before.InSection slot) after)
    (hs : before.section? slot = some s) (hapart : s.ApartFrom t) :
    after.payload t = before.payload t := by
  refine Bytes.window_congr fun i hstart hstop => h.bytes.kept i ?_
  rintro ⟨s', hs', hfirst, hlast⟩
  obtain rfl : s' = s := Option.some.inj (hs'.symm.trans hs)
  change i < t.stop at hstop
  unfold Section.ApartFrom at hapart
  omega

end Firm.ChangedWithin

namespace FirmEdit

variable {α : Type} {Q : α → Prop} {firm : Firm} {slot : Nat} {s : Section} {a : α}
  {edit : Section → Edit α}

theorem changedWithin_onSection (hfits : firm.SectionsFit)
    (hedit : ∀ n s, Edit.Confined n (edit s) Q) (target : String) :
    firm.ChangedWithin (firm.InSection slot) (onSection slot target edit firm).state :=
  (safe_patching hfits (fun _ hi => hi) hedit firm (.refl _ firm)).1

theorem onSection_of_ok (hs : firm.section? slot = some s) (hfits : firm.SectionsFit)
    (h : (edit s (firm.payload s)).result = .ok a) (target : String) :
    (onSection slot target edit firm).result = .ok a := by
  rw [onSection_of_some hs (hfits slot s hs)]
  exact h

theorem onSection_eq_ok {target : String} (hfits : firm.SectionsFit)
    (h : (onSection slot target edit firm).result = .ok a) :
    ∃ s, firm.section? slot = some s ∧ (edit s (firm.payload s)).result = .ok a ∧
      (onSection slot target edit firm).state =
        { firm with bytes := firm.bytes.overwrite s.start (edit s (firm.payload s)).state } := by
  cases hsection : firm.section? slot with
  | none =>
    rw [onSection_of_none hsection] at h
    cases h
  | some s =>
    rw [onSection_of_some hsection (hfits slot s hsection)] at h ⊢
    exact ⟨s, rfl, h, rfl⟩

end FirmEdit

/-! ## The ARM9 section -/

theorem Process9.locate_of_found {image : Bytes} {header : Nat} {m : Module} {p : Process9}
    (hfound : image.occurrenceFrom? marker earliest = some (header + markerToHeader))
    (hmodule : Module.parse (image.extract header image.size) = .ok m)
    (hplace : ofModule image.size header m = .ok p) : locate image = ⟨.ok p, image, []⟩ := by
  have hback : header + markerToHeader - markerToHeader = header := Nat.add_sub_cancel _ _
  have hfits := (Bytes.occurrenceFrom?_some hfound).2.1
  have hslice : Edit.slice header image.size image =
      ⟨.ok (image.extract header image.size), image, []⟩ :=
    Edit.slice_of_le (by omega) (Nat.le_refl _)
  have htitle : (Run.orFail (some (header + markerToHeader)) (.missing target) : Edit Nat) image =
      ⟨.ok (header + markerToHeader), image, []⟩ := rfl
  unfold locate
  rw [Run.bind_of_eq_ok (m := get) rfl, hfound, Run.bind_of_eq_ok htitle, if_neg (by omega)]
  dsimp only
  rw [hback, Run.bind_of_eq_ok hslice, hmodule]
  dsimp only
  rw [hplace]
  rfl

/-! ## The module section -/

theorem Loader.replace_of_first {modules : Bytes} {m : Module}
    (hmodule : Module.parse modules = .ok m) (htitle : m.title? = some title)
    (hcontent : m.contentBytes ≠ 0) (hfits : m.contentBytes ≤ modules.size) (injector : Bytes) :
    (replace injector modules).result =
      .ok (modules.splice 0 m.contentBytes injector, 0, m.contentBytes) := by
  have hlocate : locate modules.size 0 modules = ⟨.ok (0, m.contentBytes), modules, []⟩ := by
    rw [locate_eq (by omega), Array.extract_size, hmodule]
    dsimp only
    rw [if_neg hcontent, if_pos htitle]
  have hunits := m.header.contentUnits.toNat_lt
  have hbytes : m.contentBytes = 0x200 * m.header.contentUnits.toNat := rfl
  have hlimit : 0 + m.contentBytes < positionLimit := by
    unfold positionLimit
    omega
  exact replace_of_locate hlocate (by omega) hlimit injector

namespace PatchSet.System

variable {plan : Plan} {kit : PatchKit} {firm : Firm} {arm9 kernel module : Section}
  {modules : Bytes}

theorem changedWithin_patchArm9 (plan : Plan) (kit : PatchKit) (hfits : firm.SectionsFit)
    (target : String) :
    firm.ChangedWithin (firm.InSection arm9Slot)
      (FirmEdit.onSection arm9Slot target (fun s => patchArm9 plan kit s.address) firm).state :=
  FirmEdit.changedWithin_onSection hfits (fun _ s => confined_patchArm9 plan kit s.address) target

theorem changedWithin_patchKernel (kit : PatchKit) (hfits : firm.SectionsFit) (target : String) :
    firm.ChangedWithin (firm.InSection kernelSlot)
      (FirmEdit.onSection kernelSlot target (fun _ => patchKernel kit) firm).state :=
  FirmEdit.changedWithin_onSection hfits (fun _ _ => confined_patchKernel kit) target

theorem rebuildModules_of_first {m : Module} (hmodule : Module.parse modules = .ok m)
    (htitle : m.title? = some Loader.title) (hcontent : m.contentBytes ≠ 0)
    (hfits : m.contentBytes ≤ modules.size) (kit : PatchKit) :
    (rebuildModules kit modules).result =
      .ok (modules.splice 0 m.contentBytes kit.payloads.injector) := by
  unfold rebuildModules
  rw [Run.result_bind_of_ok
    (Loader.replace_of_first hmodule htitle hcontent hfits kit.payloads.injector)]
  rfl

theorem patchKernel_of_found {code : Bytes} {found : Kernel} {arena : Arena}
    (hkernel : Kernel.locate code = .ok found) (harena : Arena.locate code found = .ok arena)
    (h : (patchServiceCalls kit found ⟨code, arena⟩).result = .ok ()) :
    (patchKernel kit code).result = .ok () := by
  have hfind : (Kernel.find code).result = .ok found ∧ (Kernel.find code).state = code := by
    unfold Kernel.find
    rw [Run.bind_of_eq_ok (m := get) rfl, hkernel]
    exact ⟨rfl, rfl⟩
  unfold patchKernel
  rw [Run.result_bind_of_ok hfind.1, hfind.2, Run.bind_of_eq_ok (m := get) rfl, harena]
  exact h

/-- Without redirection and options the patches of the ARM9 section meet the code of Process9
alone. -/
theorem patchArm9_of_code {image : Bytes} {p9 : Process9}
    (hlocate : Process9.locate image = ⟨.ok p9, image, []⟩) (hstop : p9.stop ≤ image.size)
    (hlocation : kit.location = none) (hunit : kit.swapsUnitType = false)
    (hversion : kit.isAtLeast (installVersionSince plan.model) = false)
    (haccess : kit.config.isOn .liftAccess = false)
    (h : ((patchChecks plan >>= fun _ => RebootHook.install p9.address kit.payloads.reboot)
      (image.extract p9.start p9.stop)).result = .ok ()) (address : UInt32) :
    (patchArm9 plan kit address image).result = .ok () := by
  obtain ⟨⟨⟩, hchecks, hhook⟩ := Run.of_bind_ok h
  have hrange : p9.start ≤ p9.stop := p9.start_le_stop
  have hpart : (image.extract p9.start p9.stop).size = p9.stop - p9.start := by
    rw [Array.size_extract]
    omega
  have hsize : (patchChecks plan (image.extract p9.start p9.stop)).state.size =
      p9.stop - p9.start := (confined_patchChecks plan _ hpart).1
  have hfirst : p9.onCode (patchChecks plan) image =
      ⟨(patchChecks plan (image.extract p9.start p9.stop)).result,
        image.overwrite p9.start (patchChecks plan (image.extract p9.start p9.stop)).state,
        (patchChecks plan (image.extract p9.start p9.stop)).events⟩ :=
    Edit.within_apply hrange hstop
  rw [hchecks] at hfirst
  generalize (patchChecks plan (image.extract p9.start p9.stop)).state = checked
    at hsize hhook hfirst
  -- The hook is copied over the code that the checks were lifted in.
  have hback : (image.overwrite p9.start checked).extract p9.start p9.stop = checked := by
    have hlaid := Bytes.extract_overwrite image p9.start checked (by omega)
    rw [hsize, Nat.add_sub_cancel' hrange] at hlaid
    exact hlaid
  have hsecond : (p9.onCode (RebootHook.install p9.address kit.payloads.reboot)
      (image.overwrite p9.start checked)).result = .ok () := by
    rw [Process9.onCode, Edit.within_apply hrange (by rw [Bytes.size_overwrite]; exact hstop)]
    change (RebootHook.install _ _ ((image.overwrite p9.start checked).extract _ _)).result = _
    rw [hback]
    exact hhook
  unfold patchArm9
  rw [Run.bind_of_eq_ok hlocate, patchAccess, hlocation]
  dsimp only
  rw [Run.result_bind_of_ok (congrArg Outcome.result hfirst), hfirst,
    Run.result_bind_of_ok hsecond, if_neg (by rw [hversion]; nofun), PatchKit.swapUnitType, hunit,
    if_neg nofun, haccess, if_neg nofun]
  rfl

/-- Where no two sections share a byte, what is made of one does not depend on the others. -/
theorem patch_of_parts (hfits : firm.SectionsFit) (harm9 : firm.section? arm9Slot = some arm9)
    (hkernel : firm.section? kernelSlot = some kernel)
    (hmodule : firm.section? moduleSlot = some module) (hcode : arm9.ApartFrom kernel)
    (hbinary : arm9.ApartFrom module) (hcalls : kernel.ApartFrom module)
    (hpatched : (patchArm9 plan kit arm9.address (firm.payload arm9)).result = .ok ())
    (hinstalled : (patchKernel kit (firm.payload kernel)).result = .ok ())
    (hrebuilt : (rebuildModules kit (firm.payload module)).result = .ok modules) :
    (patch plan kit firm).result = .ok modules := by
  unfold patch
  have hfirst := changedWithin_patchArm9 plan kit hfits "ARM9 section"
  rw [Run.bind_of_ok (FirmEdit.onSection_of_ok harm9 hfits hpatched _)]
  generalize (FirmEdit.onSection arm9Slot "ARM9 section" (fun s => patchArm9 plan kit s.address)
    firm).state = middle at hfirst ⊢
  have hmiddle := hfirst.sectionsFit hfits
  have hsecond := changedWithin_patchKernel kit hmiddle "ARM11 section"
  have hfound : middle.section? kernelSlot = some kernel := (hfirst.section? _).trans hkernel
  have hsame : middle.payload kernel = firm.payload kernel := hfirst.payload_of_apart harm9 hcode
  rw [← hsame] at hinstalled
  rw [Run.bind_of_ok (FirmEdit.onSection_of_ok hfound hmiddle hinstalled _)]
  generalize (FirmEdit.onSection kernelSlot "ARM11 section" (fun _ => patchKernel kit)
    middle).state = last at hsecond ⊢
  have hstill : last.section? moduleSlot = some module :=
    (hsecond.section? _).trans ((hfirst.section? _).trans hmodule)
  have hkept : last.payload module = firm.payload module :=
    (hsecond.payload_of_apart hfound hcalls).trans (hfirst.payload_of_apart harm9 hbinary)
  rw [← hkept] at hrebuilt
  rw [Run.bind_of_ok (FirmEdit.onSection_of_ok hstill (hsecond.sectionsFit hmiddle) hrebuilt _)]
  rfl

/-! ## What has been patched -/

theorem bytes_rebuildModules (kit : PatchKit) (hfits : firm.SectionsFit) (target : String) :
    (FirmEdit.onSection moduleSlot target (fun _ => rebuildModules kit) firm).state.bytes =
      firm.bytes := by
  have hread : firm.ChangedWithin (fun _ => False)
      (FirmEdit.onSection moduleSlot target (fun _ => rebuildModules kit) firm).state :=
    (FirmEdit.safe_reading hfits (fun _ part => safe_rebuildModules kit part) firm
      (.refl _ firm)).1
  exact Array.ext_getElem? fun i => hread.bytes.kept i id

theorem size_patchKernel (kit : PatchKit) (code : Bytes) :
    (patchKernel kit code).state.size = code.size :=
  (confined_patchKernel kit code rfl).1

/-- The kernel section is that of the container with its ARM9 section patched, and what the patches
of the kernel make of it stays. -/
theorem patch_eq_ok (hfits : firm.SectionsFit) (h : (patch plan kit firm).result = .ok modules) :
    ∃ middle s, firm.ChangedWithin (firm.InSection arm9Slot) middle ∧
      firm.section? kernelSlot = some s ∧
      (patchKernel kit (middle.payload s)).result = .ok () ∧
      (patch plan kit firm).state.bytes.extract s.start s.stop =
        (patchKernel kit (middle.payload s)).state := by
  unfold patch at h ⊢
  obtain ⟨⟨⟩, -, h, hstate⟩ := Run.state_of_bind_ok h
  have hmiddle := changedWithin_patchArm9 plan kit hfits "ARM9 section"
  rw [hstate]
  generalize (FirmEdit.onSection arm9Slot "ARM9 section" (fun s => patchArm9 plan kit s.address)
    firm).state = middle at hmiddle h ⊢
  have hmiddleFits := hmiddle.sectionsFit hfits
  obtain ⟨⟨⟩, hkernel, h, hstate⟩ := Run.state_of_bind_ok h
  obtain ⟨s, hs, hpatched, hlaid⟩ := FirmEdit.onSection_eq_ok hmiddleFits hkernel
  rw [hstate]
  rw [hlaid] at h ⊢
  obtain ⟨rebuilt, -, h, hstate⟩ := Run.state_of_bind_ok h
  rw [hstate]
  have hstop := hmiddleFits _ s hs
  have hsize := size_patchKernel kit (middle.payload s)
  rw [Firm.size_payload hstop] at hsize
  have hlaidFits : ∀ data,
      Firm.SectionsFit { middle with bytes := middle.bytes.overwrite s.start data } := by
    intro data slot s' hs'
    rw [Bytes.size_overwrite]
    exact hmiddleFits slot s' hs'
  refine ⟨middle, s, hmiddle, (hmiddle.section? _).symm.trans hs, hpatched, ?_⟩
  change (FirmEdit.onSection moduleSlot _ _ _).state.bytes.extract _ _ = _
  rw [bytes_rebuildModules kit (hlaidFits _), Section.stop, ← hsize]
  refine Bytes.extract_overwrite _ _ _ ?_
  rw [hsize]
  exact hstop

end PatchSet.System
end BootStage
