import BootStage.Proofs.HeaderBytes
import BootStage.Proofs.LoadedExtent
import BootStage.Proofs.LowestOccurrence
import BootStage.Proofs.ServiceStubs
import BootStage.Proofs.SystemPatches
/-!
# A firmware with just what is searched for

Its three sections lie behind each other. The title of Process9 is not looked for near the start of
its section, so there is padding in front of the module, of which nothing but its length matters.
All patches of the system firmware find their targets in it.
-/

namespace BootStage

namespace BareFirmware

def zeros (n : Nat) : List UInt8 :=
  List.replicate n 0

def header : Bytes :=
  ([0x46, 0x49, 0x52, 0x4D] ++ (zeros 0x3C ++
    ([0x00, 0x02, 0x00, 0x00, 0x00, 0x00, 0xF0, 0x1F, 0x1C, 0x02, 0x00, 0x00] ++ (zeros 0x24 ++
    ([0x1C, 0x04, 0x00, 0x00, 0x00, 0x00, 0xF8, 0x1F, 0x24, 0x02, 0x00, 0x00] ++ (zeros 0x24 ++
    ([0x40, 0x06, 0x00, 0x00, 0x00, 0x60, 0x00, 0x08, 0xFC, 0x51, 0x01, 0x00] ++
      zeros 0x154))))))).toArray

/-- A loader without content. -/
def modules : Bytes :=
  (zeros 0x100 ++ ([0x4E, 0x43, 0x43, 0x48, 0x01] ++ (zeros 0xFB ++
    ([0x6C, 0x6F, 0x61, 0x64, 0x65, 0x72] ++ zeros 0x16)))).toArray

/-- Vectors with filler behind them, and a table of service calls without entries. -/
def kernel : Bytes :=
  (zeros 8 ++ ([0x06, 0x40, 0xFC, 0xEA] ++ (zeros 0x20 ++
    ([0x00, 0xB0, 0x9C, 0xE5, 0x34, 0x00, 0xF0, 0xFF] ++ (zeros 0xB ++
    (List.replicate 5 0xFF ++ zeros 0x1E0)))))).toArray

def moduleHead : List UInt8 :=
  zeros 0x100 ++ ([0x4E, 0x43, 0x43, 0x48] ++ (zeros 0xA0 ++ ([0x01] ++ zeros 0x5B)))

/-- The title, the two signature checks and the relaunch routine. -/
def code : List UInt8 :=
  [0x50, 0x72, 0x6F, 0x63, 0x65, 0x73, 0x73, 0x39] ++ (zeros 0x18 ++
    ([0xC0, 0x1C, 0x76, 0xE7] ++ (zeros 4 ++ ([0xB5, 0x22, 0x4D, 0x0C] ++ (zeros 0x24 ++
    ([0xE2, 0x20, 0x20, 0x90] ++ zeros 0x1AC))))))

def process9 : Bytes :=
  (moduleHead ++ code).toArray

def filler : Bytes :=
  Array.replicate 0x14DFC 0

def arm9 (padding : Bytes) : Bytes :=
  padding ++ process9

def image (padding : Bytes) : Bytes :=
  header ++ modules ++ kernel ++ arm9 padding

def firm (padding : Bytes) : Firm :=
  ⟨ContainerHeader.read header, image padding⟩

/-- The call that identifies the boot stage has a block and nothing else. -/
def payloads : Payloads where
  reboot := RebootHook.placeholder
  redirect := #[]
  injector := #[]
  info := { code := ServiceCall.Info.magic ++ Array.replicate 12 0 }
  moduleHook := #[]

/-- The built-in NAND is preferred, and the last boot recorded was a recovery boot. -/
def config : Config := ⟨0x00100100⟩

def foundBy (plan : Plan) : Boot.Fetched :=
  ⟨config, .stored, plan, none, ⟨.nand, some 0⟩⟩

def found : Boot.Fetched :=
  foundBy (LoadedImage.builtInPlan .old)

def kit : PatchKit :=
  found.kit payloads Machine.idle.isDevelopmentUnit

/-! ## Its parts -/

variable {padding : Bytes}

@[simp] theorem length_zeros (n : Nat) : (zeros n).length = n :=
  List.length_replicate

theorem size_header : header.size = 0x200 := by
  simp only [header, List.size_toArray, List.length_append, List.length_cons, List.length_nil,
    length_zeros]

theorem size_modules : modules.size = 0x21C := by
  simp only [modules, List.size_toArray, List.length_append, List.length_cons, List.length_nil,
    length_zeros]

theorem size_kernel : kernel.size = 0x224 := by
  simp only [kernel, List.size_toArray, List.length_append, List.length_cons, List.length_nil,
    List.length_replicate, length_zeros]

theorem length_moduleHead : moduleHead.length = 0x200 := by
  simp only [moduleHead, List.length_append, List.length_cons, List.length_nil, length_zeros]

theorem length_code : code.length = 0x200 := by
  simp only [code, List.length_append, List.length_cons, List.length_nil, length_zeros]

theorem size_process9 : process9.size = 0x400 := by
  rw [process9, List.size_toArray, List.length_append, length_moduleHead, length_code]

theorem size_arm9 (hpadding : padding.size = 0x14DFC) : (arm9 padding).size = 0x151FC := by
  rw [arm9, Array.size_append, hpadding, size_process9]

theorem size_image (hpadding : padding.size = 0x14DFC) : (image padding).size = 0x1583C := by
  rw [image, Array.size_append, Array.size_append, Array.size_append, size_header, size_modules,
    size_kernel, size_arm9 hpadding]

theorem extract_modules : (image padding).extract 0x200 0x41C = modules := by
  rw [image, Array.append_assoc]
  exact Bytes.extract_between size_header (by rw [size_modules]) _

theorem extract_kernel : (image padding).extract 0x41C 0x640 = kernel := by
  have hfront : (header ++ modules).size = 0x41C := by
    rw [Array.size_append, size_header, size_modules]
  exact Bytes.extract_between hfront (by rw [size_kernel]) _

theorem extract_arm9 (hpadding : padding.size = 0x14DFC) :
    (image padding).extract 0x640 0x1583C = arm9 padding := by
  have hfront : (header ++ modules ++ kernel).size = 0x640 := by
    rw [Array.size_append, Array.size_append, size_header, size_modules, size_kernel]
  exact Bytes.extract_last hfront (by rw [size_arm9 hpadding])

theorem extract_process9 (hpadding : padding.size = 0x14DFC) :
    (arm9 padding).extract 0x14DFC 0x151FC = process9 :=
  Bytes.extract_last hpadding (by rw [size_process9])

theorem extract_code (hpadding : padding.size = 0x14DFC) :
    (arm9 padding).extract 0x14FFC 0x151FC = code.toArray := by
  have hsplit : arm9 padding = padding ++ moduleHead.toArray ++ code.toArray := by
    rw [arm9, process9, ← List.append_toArray, Array.append_assoc]
  have hfront : (padding ++ moduleHead.toArray).size = 0x14FFC := by
    rw [Array.size_append, hpadding, List.size_toArray, length_moduleHead]
  rw [hsplit]
  exact Bytes.extract_last hfront (by rw [List.size_toArray, length_code])

/-! ## Its header -/

theorem image_eq_append : image padding = header ++ (modules ++ (kernel ++ arm9 padding)) := by
  rw [image, Array.append_assoc, Array.append_assoc]

theorem parse_image (hpadding : padding.size = 0x14DFC) :
    Firm.parse (image padding) = .ok (firm padding) := by
  have hsize := size_header
  have hmagic : (image padding).window 0 4 = header.window 0 4 := by
    rw [image_eq_append]
    exact Bytes.window_congr fun i _ _ => Array.getElem?_append_left (by omega)
  have hread : ContainerHeader.read (image padding) = ContainerHeader.read header := by
    rw [image_eq_append]
    exact ContainerHeader.read_append (Nat.le_of_eq hsize.symm) _
  have hparse : Firm.parse (image padding) =
      .ok ⟨ContainerHeader.read (image padding), image padding⟩ := by
    refine Firm.parse_of_sound ?_ ?_ ?_
    · rw [size_image hpadding]
      decide
    · rw [hmagic]
      decide +kernel
    · rw [hread, size_image hpadding]
      decide +kernel
  rw [hparse, hread]
  rfl

structure Lies (firm : Firm) (slot start stop : Nat) (s : Section) : Prop where
  entry : firm.section? slot = some s
  start : s.start = start
  stop : s.stop = stop

theorem Lies.payload {slot start stop : Nat} {s : Section}
    (h : Lies (firm padding) slot start stop s) :
    (firm padding).payload s = (image padding).extract start stop := by
  rw [Firm.payload, h.start, h.stop]
  rfl

theorem exists_lies {slot start stop : Nat}
    (h : ((ContainerHeader.read header).section? slot).map (fun s => (s.start, s.stop)) =
      some (start, stop)) : ∃ s, Lies (firm padding) slot start stop s := by
  obtain ⟨s, hs, hplace⟩ := Option.map_eq_some_iff.1 h
  exact ⟨s, hs, congrArg Prod.fst hplace, congrArg Prod.snd hplace⟩

theorem layout :
    (∀ s ∈ (ContainerHeader.read header).sectionList, ContainerHeader.size ≤ s.start) ∧
    [0, 1, 2].map (fun slot =>
      ((ContainerHeader.read header).section? slot).map fun s => (s.start, s.stop)) =
        [some (0x200, 0x41C), some (0x41C, 0x640), some (0x640, 0x1583C)] := by
  decide +kernel

theorem modules_lies : ∃ s, Lies (firm padding) 0 0x200 0x41C s :=
  exists_lies (List.cons.inj layout.2).1

theorem kernel_lies : ∃ s, Lies (firm padding) 1 0x41C 0x640 s :=
  exists_lies (List.cons.inj (List.cons.inj layout.2).2).1

theorem arm9_lies : ∃ s, Lies (firm padding) 2 0x640 0x1583C s :=
  exists_lies (List.cons.inj (List.cons.inj (List.cons.inj layout.2).2).2).1

/-! ## Its patches -/

theorem locate_process9 (hpadding : padding.size = 0x14DFC) :
    Process9.locate (arm9 padding) =
      ⟨.ok ⟨0x14DFC, 0x14FFC, 0x200, 0⟩, arm9 padding, []⟩ := by
  have hmarker : OccursAt process9 Process9.marker 0x204 := by decide +kernel
  have hstands := hmarker.append padding
  rw [hpadding] at hstands
  have hfound : (arm9 padding).occurrenceFrom? Process9.marker Process9.earliest =
      some (0x14DFC + Process9.markerToHeader) :=
    (Bytes.occurrenceFrom?_eq_some_iff (by decide)).2 ⟨⟨Nat.le_refl _, hstands⟩, fun _ h => h.1⟩
  have hmodule : Module.parse process9 = .ok ⟨.read process9, some (.read process9 0x200)⟩ :=
    Module.parse_of_sound (by rw [size_process9]; decide) (by decide +kernel)
  rw [← extract_process9 hpadding, ← size_arm9 hpadding] at hmodule
  refine Process9.locate_of_found hfound hmodule ?_
  rw [size_arm9 hpadding, extract_process9 hpadding]
  exact Run.eq_ok_of_toOption (by decide +kernel)

theorem patchArm9_arm9 (hpadding : padding.size = 0x14DFC) (address : UInt32) :
    (PatchSet.System.patchArm9 found.plan kit address (arm9 padding)).result = .ok () := by
  refine PatchSet.System.patchArm9_of_code (locate_process9 hpadding) ?_ rfl (by decide +kernel)
    (by decide +kernel) (by decide +kernel) ?_ address
  · rw [size_arm9 hpadding]
    decide
  · change ((PatchSet.System.patchChecks _ >>= fun _ => RebootHook.install _ _)
      ((arm9 padding).extract 0x14FFC 0x151FC)).result = _
    rw [extract_code hpadding]
    exact Run.eq_ok_of_toOption (by decide +kernel)

theorem kernel_found :
    Kernel.locate kernel = .ok ⟨0, 0x34, 0x34⟩ ∧
      Arena.locate kernel ⟨0, 0x34, 0x34⟩ = .ok ⟨0x40, 0x224⟩ ∧ kernel.word? 0x220 = some 0 := by
  have hfiller : kernel.occurrence? Arena.filler = some 0x3F := by decide +kernel
  refine ⟨?_, ?_, by decide +kernel⟩
  · exact @Kernel.locate_of_found kernel 0 0x34 0xEAFC4006 0xFFF00034 (by decide +kernel)
      (by decide +kernel) (by decide +kernel) (by decide +kernel)
  · rw [Arena.locate_of_short rfl (by rw [size_kernel]; decide) hfiller, size_kernel]

theorem block_payloads : payloads.info.code.occurrence? ServiceCall.Info.magic = some 0 :=
  (Bytes.occurrence?_eq_some_iff (by decide)).2 ⟨by decide, fun place _ => Nat.zero_le place⟩

theorem patchKernel_kernel : (PatchSet.System.patchKernel kit kernel).result = .ok () := by
  obtain ⟨hkernel, harena, hfree⟩ := kernel_found
  refine PatchSet.System.patchKernel_of_found hkernel harena ?_
  have hlimit : kernel.size < positionLimit := by
    rw [size_kernel]
    decide
  exact PatchSet.System.patchServiceCalls_of_room (by decide) hlimit hfree block_payloads
    (by decide) (Nat.le_of_eq size_kernel.symm) (by decide)

theorem rebuildModules_modules :
    (PatchSet.System.rebuildModules kit modules).result = .ok (modules.splice 0 0x200 #[]) := by
  let loader : Module := ⟨.read modules, some (.read modules 0x200)⟩
  have hmodule : Module.parse modules = .ok loader :=
    Module.parse_of_sound (by rw [size_modules]; decide) (by decide +kernel)
  have hcontent : loader.contentBytes = 0x200 := by decide +kernel
  have hrebuilt := PatchSet.System.rebuildModules_of_first hmodule (by decide +kernel)
    (by rw [hcontent]; decide) (by rw [hcontent, size_modules]; decide) kit
  rw [hcontent] at hrebuilt
  exact hrebuilt

theorem apply_firm (hpadding : padding.size = 0x14DFC) :
    (PatchSet.apply found.plan kit (firm padding)).result =
      .ok (some (modules.splice 0 0x200 #[])) := by
  obtain ⟨first, hfirst⟩ := @modules_lies padding
  obtain ⟨second, hsecond⟩ := @kernel_lies padding
  obtain ⟨third, hthird⟩ := @arm9_lies padding
  have hstart := hthird.start
  have hmiddle := hsecond.start
  have hstop := hsecond.stop
  have hfront := hfirst.stop
  have hpatch : (PatchSet.System.patch found.plan kit (firm padding)).result =
      .ok (modules.splice 0 0x200 #[]) := by
    refine PatchSet.System.patch_of_parts (Firm.sectionsFit_of_parse (parse_image hpadding))
      hthird.entry hsecond.entry hfirst.entry (.inr (by omega)) (.inr (by omega))
      (.inr (by omega)) ?_ ?_ ?_
    · rw [hthird.payload, extract_arm9 hpadding]
      exact patchArm9_arm9 hpadding _
    · rw [hsecond.payload, extract_kernel]
      exact patchKernel_kernel
    · rw [hfirst.payload, extract_modules]
      exact rebuildModules_modules
  have happly : PatchSet.apply found.plan kit =
      PatchSet.System.patch found.plan kit >>= (pure ∘ some) := rfl
  rw [happly, Run.result_bind_of_ok hpatch]
  rfl

end BareFirmware
end BootStage
