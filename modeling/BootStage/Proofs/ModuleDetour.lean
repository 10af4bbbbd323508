import BootStage.Proofs.BranchDistances
import BootStage.Proofs.ExactSearch
import BootStage.Proofs.KernelWrites
/-!
# The detour of the module unpacking

The hook goes to the free space and the unpacking gets a call to it. The call is written where the
pattern was found, so once the hook has room nothing can fail any more, and a failure leaves the
section and its free space alone.
-/

namespace BootStage.ServiceCall.ModuleUnpacking

variable {image : KernelImage} {hook : Bytes} {site : Nat}

/-! ## What installing the hook comes to -/

theorem install_cases (hook : Bytes) (h : image.code.occurrence? pattern = some site)
    (hlimit : image.code.size < positionLimit) :
    (∃ err, install hook image = ⟨.error (.failed err), image, []⟩) ∨
      image.arena.next + hook.size ≤ image.code.size ∧
        ∃ after, install hook image =
            ⟨.ok true, after, [.unpackingHooked site image.arena.next]⟩ ∧
          after.code = image.code.layAll (writes hook image.arena.next site) ∧
          after.arena = image.arena.behind hook.size := by
  -- The call goes over the pattern, so it fits where that did.
  have hpattern : site + 16 ≤ image.code.size := Bytes.occurrence?_fits h
  rw [install_of_some h]
  rcases KernelEdit.place_cases target hook image with ⟨err, hrefused⟩ | ⟨-, hfits, hplaced⟩
  · exact .inl ⟨err, Run.bind_of_eq_error hrefused _⟩
  · have hsize := Bytes.size_overwrite image.code image.arena.next hook
    have hwrite : Edit.writeWord target site (Arm.call site image.arena.next)
        (image.code.overwrite image.arena.next hook) =
          ⟨.ok (), (image.code.overwrite image.arena.next hook).overwrite site
            (.ofWord (Arm.call site image.arena.next)), []⟩ :=
      Edit.write_of_fits (by rw [Bytes.size_ofWord]; omega) (by omega)
    have hcall := KernelEdit.onCode_of_eq_ok hwrite (image.arena.behind hook.size)
    rw [writes, Bytes.layAll_pair, Run.bind_of_eq_ok hplaced, Run.bind_of_eq_ok hcall]
    generalize Bytes.overwrite _ site _ = called
    exact .inr ⟨hfits, ⟨called, image.arena.behind hook.size⟩, rfl, rfl, rfl⟩

/-! ## The detour -/

/-- The unpacking at `site` calls the hook, which was placed in the free space. -/
structure Detoured (hook : Bytes) (site : Nat) (before after : KernelImage) : Prop where
  fits : before.arena.next + hook.size ≤ before.code.size
  size : after.code.size = before.code.size
  /-- The hook is where the free space started, unless the call was written over it. -/
  placed : (∀ i, site ≤ i → i < site + 4 → i < before.arena.next ∨
      before.arena.next + hook.size ≤ i) →
    OccursAt after.code hook before.arena.next
  code : (after.code.word site).toNat / 0x1000000 = 0xEB
  /-- The processor goes to the hook, as far as it can go there in steps of a word. -/
  leads : before.arena.next % 4 = site % 4 →
    Arm.destination (after.code.word site) site = before.arena.next
  kept : ∀ i, i < before.arena.next ∨ before.arena.next + hook.size ≤ i →
    i < site ∨ site + 4 ≤ i → after.code[i]? = before.code[i]?
  arena : after.arena = before.arena.behind hook.size

/-- A branch reaches every position in a section of up to 4 MiB from every other. -/
theorem detoured_of_laid {after : KernelImage}
    (hcode : after.code = image.code.layAll (writes hook image.arena.next site))
    (harena : after.arena = image.arena.behind hook.size)
    (hfits : image.arena.next + hook.size ≤ image.code.size) (hsite : site + 16 ≤ image.code.size)
    (hsize : image.code.size ≤ 0x400000) : Detoured hook site image after := by
  have hword : after.code.word site = Arm.call site image.arena.next := by
    have hroom : site + 4 ≤ (image.code.overwrite image.arena.next hook).size := by
      rw [Bytes.size_overwrite]
      omega
    rw [hcode, writes, Bytes.layAll_pair, Bytes.word_overwrite _ _ _ hroom]
  constructor
  case fits => exact hfits
  case size => rw [hcode, Bytes.size_layAll]
  case placed =>
    intro hclear
    have hmem : ⟨image.arena.next, hook⟩ ∈ writes hook image.arena.next site := List.mem_cons_self
    have hdisjoint : (writes hook image.arena.next site).Pairwise Write.Disjoint := by
      refine List.pairwise_pair.2 fun i hhook hcall => ?_
      rw [Write.covers_mk] at hhook hcall
      have hout := hclear i hcall.1 hcall.2
      omega
    rw [hcode]
    exact Bytes.occursAt_layAll_of_disjoint hdisjoint hmem hfits
  case code => rw [hword, Arm.code_call]
  case leads =>
    intro haligned
    rw [hword, Arm.destination_call haligned (by omega) (by omega)]
  case kept =>
    intro i hhook hcall
    rw [hcode]
    refine Bytes.getElem?_layAll_of_clear fun write hwrite hcovers => ?_
    rw [writes, List.mem_cons, List.mem_singleton] at hwrite
    rcases hwrite with rfl | rfl
    · rw [Write.covers_mk] at hcovers
      omega
    · rw [Write.covers_mk, Bytes.size_ofWord] at hcovers
      omega
  case arena => exact harena

/-- In a section of up to 4 MiB the hook is installed, or nothing is done at all: where the pattern
stands nowhere that is no failure, and where it stands the detour is at its lowest place. -/
theorem install_detours (image : KernelImage) (hook : Bytes)
    (hsize : image.code.size ≤ 0x400000) :
    (∀ stop, (install hook image).result = .error stop → (install hook image).state = image) ∧
      ((install hook image).result = .ok false → (install hook image).state = image) ∧
      ((install hook image).result = .ok false ↔ ∀ place, ¬OccursAt image.code pattern place) ∧
      ((install hook image).result = .ok true →
        ∃ site, IsLeast {place | OccursAt image.code pattern place} site ∧
          Detoured hook site image (install hook image).state) := by
  have hlimit : image.code.size < positionLimit := by
    unfold positionLimit
    omega
  cases hfound : image.code.occurrence? pattern with
  | none =>
    have hnowhere := (Bytes.occurrence?_eq_none_iff (by decide)).1 hfound
    rw [install_of_none hfound]
    exact ⟨fun _ _ => rfl, fun _ => rfl, ⟨fun _ => hnowhere, fun _ => rfl⟩, nofun⟩
  | some site =>
    have hleast := (Bytes.occurrence?_eq_some_iff (by decide)).1 hfound
    rcases install_cases hook hfound hlimit with 
      ⟨err, hrefused⟩ | ⟨hfits, after, hinstalled, hcode, harena⟩
    · rw [hrefused]
      exact ⟨fun _ _ => rfl, nofun, ⟨nofun, fun h => absurd hleast.1 (h site)⟩, nofun⟩
    · rw [hinstalled]
      refine ⟨nofun, nofun, ⟨nofun, fun h => absurd hleast.1 (h site)⟩, fun _ => ?_⟩
      exact ⟨site, hleast, detoured_of_laid hcode harena hfits hleast.1.1 hsize⟩

/-- The hook lies in front of the unpacking, so the call goes back. -/
theorem install_detours_backward :
    let code : Bytes := #[0, 0, 0, 0xFF, 0xFF, 0xFF, 0xFF, 0xFF, 0xFF, 0xFF, 0xFF, 0xFF] ++ pattern
    let image : KernelImage := ⟨code, 4, 28⟩
    let hook : Bytes := #[0x1E, 0xFF, 0x2F, 0xE1]
    Arena.locate code ⟨0, 0, 0⟩ = .ok image.arena ∧ code.size ≤ 0x400000 ∧
      Detoured hook 12 image (install hook image).state ∧
      OccursAt (install hook image).state.code hook 4 ∧
      Arm.destination ((install hook image).state.code.word 12) 12 = 4 := by
  intro code image hook
  have hlocate : Arena.locate code ⟨0, 0, 0⟩ = .ok image.arena :=
    Arena.locate_of_short rfl (by decide) (by decide +kernel)
  have hsize : code.size ≤ 0x400000 := by decide
  have hsite : IsLeast {place | OccursAt code pattern place} 12 :=
    (Bytes.occurrence?_eq_some_iff (by decide)).1 (by decide +kernel)
  obtain ⟨-, -, -, hinstalled⟩ := install_detours image hook hsize
  obtain ⟨site, hleast, hdetoured⟩ := hinstalled (by decide +kernel)
  obtain rfl := hleast.unique hsite
  have hnext : image.arena.next = 4 := rfl
  have hlong : hook.size = 4 := rfl
  exact ⟨hlocate, hsize, hdetoured, hdetoured.placed (by omega), hdetoured.leads (by omega)⟩

end BootStage.ServiceCall.ModuleUnpacking
