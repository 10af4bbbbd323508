import BootStage.PatchSet.System
import BootStage.Proofs.EditWrites
import BootStage.Proofs.Placements
/-!
# Writes to the kernel section

What the patches of the kernel do is a list of writes, laid over the section one after the other:
the calls that are added, each with its entry in the table, and then the checks that are lifted.
A byte that no later write covers is there in the end.
-/

namespace BootStage

/-! ## Single steps -/

def Arena.behind (arena : Arena) (len : Nat) : Arena :=
  ⟨aligned (arena.next + len), arena.stop⟩

@[simp] theorem Arena.behind_next (arena : Arena) (len : Nat) :
    (arena.behind len).next = aligned (arena.next + len) :=
  rfl

@[simp] theorem Arena.behind_stop (arena : Arena) (len : Nat) :
    (arena.behind len).stop = arena.stop :=
  rfl

namespace KernelEdit

variable {image : KernelImage} {target : String} {code : Bytes} {pos : Nat}

theorem place_cases (target : String) (code : Bytes) (image : KernelImage) :
    (∃ err, place target code image = ⟨.error (.failed err), image, []⟩) ∨
      image.arena.next + code.size ≤ image.arena.stop ∧
        image.arena.next + code.size ≤ image.code.size ∧
        place target code image =
          ⟨.ok image.arena.next,
            ⟨image.code.overwrite image.arena.next code, image.arena.behind code.size⟩, []⟩ :=
  image.placing_cases ⟨target, code⟩

theorem place_eq_ok (h : (place target code image).result = .ok pos) :
    pos = image.arena.next ∧ pos + code.size ≤ image.arena.stop ∧
      pos + code.size ≤ image.code.size ∧
      (place target code image).state =
        ⟨image.code.overwrite pos code, image.arena.behind code.size⟩ := by
  rcases place_cases target code image with ⟨err, hrefused⟩ | ⟨hroom, hfits, hplaced⟩
  · rw [hrefused] at h
    cases h
  · rw [hplaced] at h ⊢
    obtain rfl := Except.ok.inj h
    exact ⟨rfl, hroom, hfits, rfl⟩

theorem onCode_eq_ok {α : Type} {edit : Edit α} {arena : Arena} {a : α}
    (h : (onCode edit ⟨code, arena⟩).result = .ok a) :
    (edit code).result = .ok a ∧ (onCode edit ⟨code, arena⟩).state = ⟨(edit code).state, arena⟩ :=
  ⟨h, rfl⟩

theorem onCode_of_eq_ok {α : Type} {edit : Edit α} {after : Bytes} {a : α}
    (h : edit code = ⟨.ok a, after, []⟩) (arena : Arena) :
    onCode edit ⟨code, arena⟩ = ⟨.ok a, ⟨after, arena⟩, []⟩ := by
  unfold onCode Run.onPart
  dsimp only
  rw [h]

theorem place_of_room (hroom : image.arena.next + code.size ≤ image.arena.stop)
    (hfits : image.arena.next + code.size ≤ image.code.size)
    (hlimit : image.code.size < positionLimit) :
    place target code image = ⟨.ok image.arena.next,
      ⟨image.code.overwrite image.arena.next code, image.arena.behind code.size⟩, []⟩ := by
  unfold place
  rw [Run.bind_of_eq_ok (m := get) rfl, if_pos hroom,
    Run.bind_of_eq_ok (onCode_of_eq_ok (Edit.write_of_fits hfits hlimit) _)]
  rfl

end KernelEdit

/-! ## The calls that are added -/

namespace ServiceCall

variable {kernel : Kernel} {image : KernelImage}

def entryWrite (kernel : Kernel) (number pos : Nat) : Write :=
  ⟨kernel.slot number, .ofWord (Arena.address pos)⟩

def Backdoor.writes (kernel : Kernel) (pos : Nat) : List Write :=
  [⟨pos, Backdoor.code⟩, entryWrite kernel Backdoor.number pos]

def Info.writes (kernel : Kernel) (stub : Info.Stub) (config : Config) (pos offset : Nat) :
    List Write :=
  [⟨pos, stub.code⟩, ⟨pos + offset, Info.block config stub.build⟩,
    entryWrite kernel Info.number pos]

theorem point_eq_ok {target : String} {number pos : Nat} {code : Bytes}
    (h : (point target kernel number pos code).result = .ok ()) :
    (point target kernel number pos code).state = code.layAll [entryWrite kernel number pos] :=
  Edit.writeWord_eq_ok h

theorem point_of_fits {target : String} {number pos : Nat} {code : Bytes}
    (hslot : kernel.slot number + 4 ≤ code.size) (hlimit : code.size < positionLimit) :
    point target kernel number pos code =
      ⟨.ok (), code.layAll [entryWrite kernel number pos], []⟩ := by
  rw [entryWrite, Bytes.layAll_mk_cons, Bytes.layAll_nil]
  exact Edit.write_of_fits hslot hlimit

theorem word_entryWrite {number : Nat} {code : Bytes} (h : kernel.slot number + 4 ≤ code.size)
    (pos : Nat) :
    (code.layAll [entryWrite kernel number pos]).word (kernel.slot number) = Arena.address pos := by
  rw [entryWrite, Bytes.layAll_mk_cons, Bytes.layAll_nil, Bytes.word_overwrite _ _ _ h]

/-- What installing the call comes to: it is left alone where its entry is taken already. -/
theorem Backdoor.install_eq_ok {installed : Bool}
    (h : (Backdoor.install kernel image).result = .ok installed) :
    ∃ current, image.code.word? (kernel.slot Backdoor.number) = some current ∧
      (current ≠ 0 ∧ installed = false ∧ (Backdoor.install kernel image).state = image ∨
        current = 0 ∧ installed = true ∧
          image.arena.next + Backdoor.code.size ≤ image.arena.stop ∧
          image.arena.next + Backdoor.code.size ≤ image.code.size ∧
          (Backdoor.install kernel image).state =
            ⟨image.code.layAll (Backdoor.writes kernel image.arena.next),
              image.arena.behind Backdoor.code.size⟩) := by
  unfold Backdoor.install at h ⊢
  rw [Run.bind_of_eq_ok (m := get) rfl] at h ⊢
  obtain ⟨current, hcurrent, h, hstate⟩ := Run.state_of_bind_ok h
  refine ⟨current, Run.orFail_eq_ok hcurrent, ?_⟩
  rw [hstate]
  rw [Run.state_orFail] at h ⊢
  by_cases hfree : current = 0
  · rw [if_pos hfree] at h ⊢
    obtain ⟨pos, hpos, h, hstate⟩ := Run.state_of_bind_ok h
    obtain ⟨rfl, hroom, hfits, hplaced⟩ := KernelEdit.place_eq_ok hpos
    rw [hstate, hplaced]
    rw [hplaced] at h
    obtain ⟨⟨⟩, hentry, h, hstate⟩ := Run.state_of_bind_ok h
    obtain ⟨hentry, hlaid⟩ := KernelEdit.onCode_eq_ok hentry
    rw [point_eq_ok hentry] at hlaid
    rw [hstate]
    rw [Backdoor.writes, Bytes.layAll_mk_cons, ← hlaid]
    generalize (KernelEdit.onCode _ _).state = entered at h ⊢
    exact .inr ⟨hfree, (Except.ok.inj h).symm, hroom, hfits, rfl⟩
  · rw [if_neg hfree] at h ⊢
    exact .inl ⟨hfree, (Except.ok.inj h).symm, rfl⟩

theorem Backdoor.install_writes {installed : Bool}
    (h : (Backdoor.install kernel image).result = .ok installed) :
    ∃ front, (Backdoor.install kernel image).state.code = image.code.layAll front ∧
      (front = [] ∧ (Backdoor.install kernel image).state.arena.next = image.arena.next ∨
        front = Backdoor.writes kernel image.arena.next ∧
          (Backdoor.install kernel image).state.arena.next =
            Arena.aligned (image.arena.next + Backdoor.code.size)) := by
  obtain ⟨current, -, ⟨-, -, hkept⟩ | ⟨-, -, -, -, hlaid⟩⟩ := install_eq_ok h
  · rw [hkept]
    exact ⟨[], (Bytes.layAll_nil _).symm, .inl ⟨rfl, rfl⟩⟩
  · rw [hlaid, Arena.behind_next]
    generalize Backdoor.writes kernel image.arena.next = front
    exact ⟨front, rfl, .inr ⟨rfl, rfl⟩⟩

theorem Info.state_blockOffset (stub : Bytes) (image : KernelImage) :
    (Info.blockOffset stub image).state = image := by
  unfold Info.blockOffset
  cases stub.occurrence? Info.magic with
  | none => rfl
  | some offset =>
    rw [Run.bind_of_eq_ok (m := Run.orFail _ _) rfl]
    cases stub.range? offset stub.size with
    | none => rfl
    | some tail =>
      dsimp only
      split <;> rfl

theorem Info.blockOffset_eq_ok {stub : Bytes} {offset : Nat}
    (h : (Info.blockOffset stub image).result = .ok offset) :
    stub.occurrence? Info.magic = some offset ∧ offset + Info.blockSize ≤ stub.size := by
  unfold Info.blockOffset at h
  obtain ⟨found, hfound, h⟩ := Run.of_bind_ok h
  have hblock : stub.occurrence? Info.magic = some found := Run.orFail_eq_ok hfound
  have hfits := Bytes.occurrence?_fits hblock
  rw [Run.state_orFail, Bytes.range?_eq_some (by omega) (Nat.le_refl _)] at h
  dsimp only at h
  split at h
  · cases h
  · next hlong =>
    obtain rfl := Except.ok.inj h
    rw [Array.size_extract] at hlong
    exact ⟨hblock, by omega⟩

theorem Info.install_eq_ok {stub : Info.Stub} {config : Config}
    (h : (Info.install kernel stub config image).result = .ok ()) :
    ∃ offset, stub.code.occurrence? Info.magic = some offset ∧
      offset + Info.blockSize ≤ stub.code.size ∧
      image.arena.next + stub.code.size ≤ image.arena.stop ∧
      image.arena.next + stub.code.size ≤ image.code.size ∧
      (Info.install kernel stub config image).state =
        ⟨image.code.layAll (Info.writes kernel stub config image.arena.next offset),
          image.arena.behind stub.code.size⟩ := by
  unfold Info.install at h ⊢
  obtain ⟨offset, hoffset, h, hstate⟩ := Run.state_of_bind_ok h
  obtain ⟨hfound, hblock⟩ := blockOffset_eq_ok hoffset
  rw [hstate]
  rw [state_blockOffset] at h ⊢
  obtain ⟨pos, hpos, h, hstate⟩ := Run.state_of_bind_ok h
  obtain ⟨rfl, hroom, hfits, hplaced⟩ := KernelEdit.place_eq_ok hpos
  rw [hstate, hplaced]
  rw [hplaced] at h
  obtain ⟨⟨⟩, hfilled, -, hstate⟩ := Run.state_of_bind_ok h
  rw [hstate]
  refine ⟨offset, hfound, hblock, hroom, hfits, ?_⟩
  obtain ⟨hfilled, hlaid⟩ := KernelEdit.onCode_eq_ok hfilled
  obtain ⟨⟨⟩, hblock, hentry, hstate⟩ := Run.state_of_bind_ok hfilled
  rw [Edit.write_eq_ok hblock] at hentry hstate
  rw [hstate, point_eq_ok hentry] at hlaid
  rw [Info.writes, Bytes.layAll_mk_cons, Bytes.layAll_mk_cons, ← hlaid]
  rfl

/-! ## The checks that are lifted -/

def CallAccess.write (pos : Nat) : Write :=
  ⟨pos, .ofWord CallAccess.granted⟩

def ModuleUnpacking.writes (hook : Bytes) (pos site : Nat) : List Write :=
  [⟨pos, hook⟩, ⟨site, .ofWord (Arm.call site pos)⟩]

theorem CallAccess.lift_eq_ok {code : Bytes} (h : (CallAccess.lift kernel code).result = .ok ()) :
    ∃ pos, (CallAccess.lift kernel code).state = code.layAll [CallAccess.write pos] := by
  unfold CallAccess.lift at h ⊢
  rw [Run.bind_of_eq_ok (m := get) rfl] at h ⊢
  obtain ⟨pos, -, h, hstate⟩ := Run.state_of_bind_ok h
  rw [hstate]
  rw [Run.state_orFail] at h ⊢
  obtain ⟨⟨⟩, hwrite, -, hstate⟩ := Run.state_of_bind_ok h
  rw [hstate]
  exact ⟨pos, Edit.writeWord_eq_ok hwrite⟩

theorem ModuleUnpacking.install_of_none {hook : Bytes}
    (h : image.code.occurrence? pattern = none) :
    install hook image = ⟨.ok false, image, [.unpackingMissing]⟩ := by
  unfold install
  rw [Run.bind_of_eq_ok (m := get) rfl, h]
  rfl

theorem ModuleUnpacking.install_of_some {hook : Bytes} {site : Nat}
    (h : image.code.occurrence? pattern = some site) :
    install hook image =
      (KernelEdit.place target hook >>= fun pos =>
        KernelEdit.onCode (Edit.writeWord target site (Arm.call site pos)) >>= fun _ =>
          Run.emit (.unpackingHooked site pos) >>= fun _ => pure true : KernelEdit Bool) image := by
  unfold install
  rw [Run.bind_of_eq_ok (m := get) rfl, h]

theorem ModuleUnpacking.install_eq_ok {hook : Bytes} {installed : Bool}
    (h : (ModuleUnpacking.install hook image).result = .ok installed) :
    ∃ writes,
      (writes = [] ∨ ∃ site, writes = ModuleUnpacking.writes hook image.arena.next site) ∧
        (ModuleUnpacking.install hook image).state.code = image.code.layAll writes := by
  cases hfound : image.code.occurrence? pattern with
  | none =>
    rw [install_of_none hfound]
    exact ⟨[], .inl rfl, (Bytes.layAll_nil _).symm⟩
  | some site =>
    rw [install_of_some hfound] at h ⊢
    obtain ⟨pos, hpos, h, hstate⟩ := Run.state_of_bind_ok h
    obtain ⟨rfl, -, -, hplaced⟩ := KernelEdit.place_eq_ok hpos
    rw [hstate, hplaced]
    rw [hplaced] at h
    obtain ⟨⟨⟩, hcall, -, hstate⟩ := Run.state_of_bind_ok h
    obtain ⟨hcall, hlaid⟩ := KernelEdit.onCode_eq_ok hcall
    rw [Edit.writeWord_eq_ok hcall] at hlaid
    rw [← Bytes.layAll_mk_cons] at hlaid
    rw [hstate]
    generalize (KernelEdit.onCode _ _).state = entered at hlaid ⊢
    refine ⟨ModuleUnpacking.writes hook image.arena.next site, .inr ⟨site, rfl⟩, ?_⟩
    change entered.code = _
    rw [hlaid, ModuleUnpacking.writes]

end ServiceCall

/-! ## All patches of the kernel -/

theorem Kernel.find_eq_ok {code : Bytes} {kernel : Kernel}
    (h : (Kernel.find code).result = .ok kernel) :
    Kernel.locate code = .ok kernel ∧ (Kernel.find code).state = code := by
  unfold Kernel.find at h ⊢
  rw [Run.bind_of_eq_ok (m := get) rfl] at h ⊢
  obtain ⟨found, hfound, h, hstate⟩ := Run.state_of_bind_ok h
  rw [hstate]
  rw [Run.state_ofExcept] at h ⊢
  obtain rfl := Except.ok.inj h
  exact ⟨Run.ofExcept_eq_ok hfound, rfl⟩

/-- The writes that lift access checks, where the options ask for it, in a section with free space
from `next` on. -/
inductive Lifting (kit : PatchKit) (next : Nat) : List Write → Prop
  | none (hoff : kit.config.isOn .liftAccess = false) : Lifting kit next []
  | calls (hon : kit.config.isOn .liftAccess) (check : Nat) :
    Lifting kit next [ServiceCall.CallAccess.write check]
  | modules (hon : kit.config.isOn .liftAccess) (check site : Nat) :
    Lifting kit next (ServiceCall.CallAccess.write check ::
      ServiceCall.ModuleUnpacking.writes kit.payloads.moduleHook next site)

theorem Lifting.eq_nil {kit : PatchKit} {next : Nat} {later : List Write}
    (h : Lifting kit next later) (hoff : kit.config.isOn .liftAccess = false) : later = [] := by
  cases h with
  | none => rfl
  | calls hon | modules hon => cases hoff.symm.trans hon

structure KernelPatch where
  /-- Those made before the stub of the identifying call is placed. -/
  front : List Write
  pos : Nat
  /-- Position of the block in it. -/
  offset : Nat
  later : List Write
  deriving DecidableEq, Repr

namespace KernelPatch

def writes (patch : KernelPatch) (kit : PatchKit) (kernel : Kernel) : List Write :=
  patch.front ++ (ServiceCall.Info.writes kernel kit.payloads.info kit.config patch.pos
    patch.offset ++ patch.later)

/-- `patch` is what the patches of the kernel have made of `before`, with the free space `arena`. -/
structure Makes (patch : KernelPatch) (kit : PatchKit) (kernel : Kernel) (arena : Arena)
    (before after : Bytes) : Prop where
  front : patch.front = [] ∧ patch.pos = arena.next ∨
    patch.front = ServiceCall.Backdoor.writes kernel arena.next ∧
      patch.pos = Arena.aligned (arena.next + ServiceCall.Backdoor.code.size)
  block : kit.payloads.info.code.occurrence? ServiceCall.Info.magic = some patch.offset
  blockFits : patch.offset + ServiceCall.Info.blockSize ≤ kit.payloads.info.code.size
  stubFits : patch.pos + kit.payloads.info.code.size ≤ before.size
  later : Lifting kit (Arena.aligned (patch.pos + kit.payloads.info.code.size)) patch.later
  after : after = before.layAll (patch.writes kit kernel)

def configPos (patch : KernelPatch) : Nat :=
  patch.pos + patch.offset + 12

/-- No write after that of the block covers its configuration word. -/
def KeepsConfig (patch : KernelPatch) (kernel : Kernel) : Prop :=
  ∀ write ∈ ServiceCall.entryWrite kernel ServiceCall.Info.number patch.pos :: patch.later,
    ∀ i, patch.configPos ≤ i → i < patch.configPos + 4 → ¬write.Covers i

variable {patch : KernelPatch} {kit : PatchKit} {kernel : Kernel} {arena : Arena}
  {before after : Bytes}

theorem Makes.after_eq (h : patch.Makes kit kernel arena before after) :
    after = (((before.layAll patch.front).overwrite patch.pos kit.payloads.info.code).overwrite
      (patch.pos + patch.offset)
        (ServiceCall.Info.block kit.config kit.payloads.info.build)).layAll
          (ServiceCall.entryWrite kernel ServiceCall.Info.number patch.pos :: patch.later) := by
  rw [h.after, writes, ServiceCall.Info.writes, Bytes.layAll_append]
  simp only [List.cons_append, List.nil_append, Bytes.layAll_cons]

/-- Where no checks are lifted, the table entry is the only write behind the block. -/
theorem Makes.keepsConfig (h : patch.Makes kit kernel arena before after)
    (hoff : kit.config.isOn .liftAccess = false)
    (hslot : kernel.slot ServiceCall.Info.number + 4 ≤ patch.configPos ∨
      patch.configPos + 4 ≤ kernel.slot ServiceCall.Info.number) : patch.KeepsConfig kernel := by
  have hlater := h.later.eq_nil hoff
  intro write hwrite i hstart hstop hcovers
  rw [hlater, List.mem_singleton] at hwrite
  subst hwrite
  have hentry : kernel.slot ServiceCall.Info.number ≤ i ∧
      i < kernel.slot ServiceCall.Info.number + 4 := hcovers
  omega

theorem Makes.word_configPos (h : patch.Makes kit kernel arena before after)
    (hkeeps : patch.KeepsConfig kernel) : after.word patch.configPos = kit.config.word := by
  have hword := (ServiceCall.Info.block_reads kit.config kit.payloads.info.build).2.2.2
  have hsize := ServiceCall.Info.size_block kit.config kit.payloads.info.build
  have hblock : ServiceCall.Info.blockSize = 16 := rfl
  have hblockFits := h.blockFits
  have hstubFits := h.stubFits
  rw [← hword, h.after_eq]
  refine Bytes.word_eq_of_byte fun k hk => ?_
  have hclear : ∀ write ∈
      ServiceCall.entryWrite kernel ServiceCall.Info.number patch.pos :: patch.later,
        ¬write.Covers (patch.configPos + k) :=
    fun write hmem => hkeeps write hmem _ (Nat.le_add_right _ _) (by omega)
  have hpos : patch.configPos = patch.pos + patch.offset + 12 := rfl
  rw [Bytes.byte, Bytes.byte, Bytes.getElem?_layAll_of_clear hclear, Bytes.getElem?_overwrite,
    if_pos, hpos]
  · congr 2
    omega
  · rw [Bytes.size_overwrite, Bytes.size_layAll]
    omega

end KernelPatch

namespace PatchSet.System

open ServiceCall

variable {kit : PatchKit} {kernel : Kernel} {image : KernelImage}

/-- The stub goes where the free space then starts, and the checks are lifted last, if at all. -/
theorem patchServiceCalls_eq_ok (h : (patchServiceCalls kit kernel image).result = .ok ()) :
    ∃ patch : KernelPatch, patch.Makes kit kernel image.arena image.code
      (patchServiceCalls kit kernel image).state.code := by
  unfold patchServiceCalls at h ⊢
  obtain ⟨installed, hbackdoor, h, hstate⟩ := Run.state_of_bind_ok h
  obtain ⟨front, hbacked, hfront⟩ := Backdoor.install_writes hbackdoor
  rw [hstate]
  generalize (Backdoor.install kernel image).state = backed at hbacked hfront h ⊢
  obtain ⟨⟨⟩, hinfo, h, hstate⟩ := Run.state_of_bind_ok h
  obtain ⟨offset, hoffset, hblock, -, hstub, hfilled⟩ := Info.install_eq_ok hinfo
  rw [hstate]
  rw [hfilled] at h ⊢
  rw [hbacked, Bytes.size_layAll] at hstub
  rw [hbacked, ← Bytes.layAll_append] at h ⊢
  -- What is left to find are the writes that lift checks.
  have hassemble : ∀ code later,
      Lifting kit (backed.arena.behind kit.payloads.info.code.size).next later →
      code = (image.code.layAll (front ++ Info.writes kernel kit.payloads.info kit.config
        backed.arena.next offset)).layAll later →
        ∃ patch : KernelPatch, patch.Makes kit kernel image.arena image.code code := by
    intro code later hlater hlaid
    refine ⟨⟨front, backed.arena.next, offset, later⟩, hfront, hoffset, hblock, hstub, hlater, ?_⟩
    rw [KernelPatch.writes, hlaid, ← Bytes.layAll_append, List.append_assoc]
  by_cases hlifts : kit.config.isOn .liftAccess
  · rw [if_pos hlifts] at h ⊢
    obtain ⟨⟨⟩, hcalls, h, hstate⟩ := Run.state_of_bind_ok h
    rw [hstate]
    obtain ⟨hcalls, hlifted⟩ := KernelEdit.onCode_eq_ok hcalls
    obtain ⟨check, hcheck⟩ := CallAccess.lift_eq_ok hcalls
    rw [hcheck] at hlifted
    rw [hlifted] at h ⊢
    obtain ⟨hooked, hhook, -, hstate⟩ := Run.state_of_bind_ok h
    obtain ⟨writes, hwrites, hlaid⟩ := ModuleUnpacking.install_eq_ok hhook
    rw [hstate]
    generalize (ModuleUnpacking.install _ _).state = last at hlaid ⊢
    dsimp only at hlaid
    rw [← Bytes.layAll_append, List.singleton_append] at hlaid
    refine hassemble last.code (CallAccess.write check :: writes) ?_ hlaid
    rcases hwrites with rfl | ⟨site, rfl⟩
    · exact .calls hlifts check
    · exact .modules hlifts check site
  · rw [if_neg hlifts]
    exact hassemble _ [] (.none (Bool.eq_false_iff.2 hlifts)) (Bytes.layAll_nil _).symm

theorem patchKernel_eq_ok {code : Bytes} (h : (patchKernel kit code).result = .ok ()) :
    ∃ kernel arena, ∃ patch : KernelPatch, Kernel.locate code = .ok kernel ∧
      Arena.locate code kernel = .ok arena ∧
      patch.Makes kit kernel arena code (patchKernel kit code).state := by
  unfold patchKernel at h ⊢
  obtain ⟨kernel, hfind, h, hstate⟩ := Run.state_of_bind_ok h
  obtain ⟨hlocate, hfound⟩ := Kernel.find_eq_ok hfind
  rw [hstate]
  rw [hfound, Run.bind_of_eq_ok (m := get) rfl] at h ⊢
  obtain ⟨arena, harena, h, hstate⟩ := Run.state_of_bind_ok h
  rw [hstate]
  rw [Run.state_ofExcept] at h ⊢
  obtain ⟨patch, hmakes⟩ := @patchServiceCalls_eq_ok kit kernel ⟨code, arena⟩ h
  exact ⟨kernel, arena, patch, hlocate, Run.ofExcept_eq_ok harena, hmakes⟩

end PatchSet.System
end BootStage
