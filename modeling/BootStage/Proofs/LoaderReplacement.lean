import BootStage.Proofs.EditEffects
import BootStage.Proofs.EditSafety
/-!
# The walk to the loader

The walk goes from header to header, each as far behind the last as that one says. Where modules
lie one behind the other it comes to each of them, and it ends at the first one with the title.
-/

namespace BootStage

namespace Bytes

def chain (parts : List Bytes) : Bytes :=
  parts.foldr (· ++ ·) #[]

@[simp] theorem chain_nil : chain [] = #[] :=
  rfl

@[simp] theorem chain_cons (part : Bytes) (rest : List Bytes) :
    chain (part :: rest) = part ++ chain rest :=
  rfl

theorem window_append {front : Bytes} {pos len : Nat} (h : pos + len ≤ front.size)
    (rest : Bytes) : (front ++ rest).window pos len = front.window pos len :=
  window_congr fun _ _ _ => Array.getElem?_append_left (by omega)

theorem extract_behind (front rest : Bytes) :
    (front ++ rest).extract front.size (front ++ rest).size = rest := by
  simp [Array.extract_append]

theorem splice_between (front part rest inserted : Bytes) :
    (front ++ part ++ rest).splice front.size part.size inserted = front ++ inserted ++ rest := by
  have hstop : front.size + part.size = (front ++ part).size := Array.size_append.symm
  have hfront : (front ++ part ++ rest).extract 0 front.size = front := by
    rw [Array.append_assoc, Array.extract_append_left]
    simp
  rw [splice, hstop, extract_behind, hfront]

theorem replaceRange_of_fits {b : Bytes} {pos removed : Nat} (hfits : pos + removed ≤ b.size)
    (hlimit : pos + removed < positionLimit) (inserted : Bytes) :
    b.replaceRange pos removed inserted = .ok (b.splice pos removed inserted) := by
  have hsum : advanced? pos removed = some (pos + removed) := if_pos hlimit
  simp [replaceRange, hsum, hfits]

theorem replaceRange_eq_ok {b : Bytes} {pos removed : Nat} {inserted rebuilt : Bytes}
    (h : b.replaceRange pos removed inserted = .ok rebuilt) :
    rebuilt = b.splice pos removed inserted := by
  unfold replaceRange at h
  split at h
  · cases h
  · split at h
    · exact (Except.ok.inj h).symm
    · cases h

end Bytes

/-! ## Modules on their own -/

namespace Module

/-- The title in the extended header of a module image, up to its first zero byte. -/
def titleOf (image : Bytes) : Bytes :=
  (image.window ModuleHeader.size 8).takeWhile (· ≠ 0)

/-- An image that is one module: it is as long as its header says, which is long enough for both
headers. -/
structure IsModule (image : Bytes) : Prop where
  magic : image.window 0x100 4 = ModuleHeader.magic
  size : image.size = mediaBytes (image.word 0x104)
  units : 2 ≤ (image.word 0x104).toNat

theorem IsModule.headSize_le {image : Bytes} (h : IsModule image) : headSize ≤ image.size := by
  have hunits := h.units
  have hhead : headSize = 0x21C := rfl
  rw [h.size, mediaBytes]
  omega

theorem parse_append {image : Bytes} (h : IsModule image) (rest : Bytes) :
    ∃ m, parse (image ++ rest) = .ok m ∧ m.contentBytes = image.size ∧
      m.title? = some (titleOf image) := by
  have hhead : headSize = 0x21C := rfl
  have hsize := h.headSize_le
  have hlong : headSize ≤ (image ++ rest).size := by
    rw [Array.size_append]
    exact Nat.le_trans hsize (Nat.le_add_right _ _)
  have hmagic : (image ++ rest).window 0x100 4 = ModuleHeader.magic := by
    rw [Bytes.window_append (by omega), h.magic]
  refine ⟨_, parse_of_sound hlong hmagic, ?_, ?_⟩
  · change mediaBytes ((image ++ rest).word 0x104) = _
    rw [Bytes.word_append (by omega), h.size]
  · have htitle : (image ++ rest).window ModuleHeader.size 8 =
        image.window ModuleHeader.size 8 :=
      Bytes.window_append (Nat.le_trans (by decide) hsize) rest
    simp only [title?, Option.map_some, ExtendedHeader.read, htitle, titleOf]

end Module

namespace Loader

variable {modules injector : Bytes} {pos start size : Nat}

/-! ## The walk -/

theorem locate_eq (h : pos < modules.size) :
    locate modules.size pos modules =
      match Module.parse (modules.extract pos modules.size) with
      | .error _ => ⟨.error (.failed (.malformed target "not an NCCH")), modules, []⟩
      | .ok m =>
        if m.contentBytes = 0 then
          ⟨.error (.failed (.malformed target "zero-sized module")), modules, []⟩
        else if m.title? = some title then ⟨.ok (pos, m.contentBytes), modules, []⟩
        else locate modules.size (pos + m.contentBytes) modules := by
  have hslice : Edit.slice pos modules.size modules =
      ⟨.ok (modules.extract pos modules.size), modules, []⟩ :=
    Edit.slice_of_le (Nat.le_of_lt h) (Nat.le_refl _)
  rw [locate, if_neg (Nat.not_le.2 h), Run.bind_of_eq_ok hslice]
  cases Module.parse (modules.extract pos modules.size) with
  | error err => rfl
  | ok m =>
    dsimp only
    split
    · rfl
    · split <;> rfl

theorem locate_of_le (h : modules.size ≤ pos) :
    locate modules.size pos modules = ⟨.error (.failed (.missing target)), modules, []⟩ := by
  rw [locate, if_pos h]
  rfl

/-- A position the walk comes to: it starts at the front, and passes each header by the size of
its content. -/
inductive Reached (modules : Bytes) : Nat → Prop
  | start : Reached modules 0
  | next {pos : Nat} {m : Module} (hpos : Reached modules pos)
    (hmodule : Module.parse (modules.extract pos modules.size) = .ok m)
    (htitle : m.title? ≠ some title) : Reached modules (pos + m.contentBytes)

/-- The walk comes to a header with the title at `start`, whose content takes up `size` bytes. -/
structure Located (modules : Bytes) (start size : Nat) : Prop where
  reached : Reached modules start
  header : ∃ m, Module.parse (modules.extract start modules.size) = .ok m ∧
    m.title? = some title ∧ m.contentBytes = size

/-- The walk ends at a header with the title, whatever the bytes. -/
theorem located_of_locate (hreached : Reached modules pos)
    (h : (locate modules.size pos modules).result = .ok (start, size)) :
    Located modules start size := by
  -- By induction on what is left to walk: a module that is passed has a content.
  induction hleft : modules.size - pos using Nat.strongRecOn generalizing pos with
  | ind left ih =>
    by_cases hinside : pos < modules.size
    · rw [locate_eq hinside] at h
      cases hparse : Module.parse (modules.extract pos modules.size) with
      | error err =>
        rw [hparse] at h
        cases h
      | ok m =>
        rw [hparse] at h
        dsimp only at h
        split at h
        · cases h
        · next hcontent =>
          split at h
          · next htitle =>
            obtain ⟨rfl, rfl⟩ := Prod.mk.inj (Except.ok.inj h)
            exact ⟨hreached, m, hparse, htitle, rfl⟩
          · next htitle => exact ih _ (by omega) (hreached.next hparse htitle) h rfl
    · rw [locate_of_le (Nat.not_lt.1 hinside)] at h
      cases h

/-- A module that the walk comes to is taken if it has the title, and passed otherwise. -/
theorem locate_module {image : Bytes} (h : Module.IsModule image) (before rest : Bytes)
    (hmodules : modules = before ++ (image ++ rest)) :
    locate modules.size before.size modules =
      if Module.titleOf image = title then ⟨.ok (before.size, image.size), modules, []⟩
      else locate modules.size (before.size + image.size) modules := by
  obtain ⟨m, hparse, hcontent, htitle⟩ := Module.parse_append h rest
  have hhead : Module.headSize = 0x21C := rfl
  have hsize := h.headSize_le
  have hbehind : modules.extract before.size modules.size = image ++ rest := by
    rw [hmodules, Bytes.extract_behind]
  have hinside : before.size < modules.size := by
    rw [hmodules, Array.size_append, Array.size_append]
    omega
  rw [locate_eq hinside, hbehind, hparse]
  dsimp only
  rw [hcontent, htitle, if_neg (by omega)]
  simp only [Option.some.injEq]

theorem locate_chain {passed : List Bytes}
    (hpassed : ∀ image ∈ passed, Module.IsModule image ∧ Module.titleOf image ≠ title)
    (before rest : Bytes) (hmodules : modules = before ++ (Bytes.chain passed ++ rest)) :
    locate modules.size before.size modules =
      locate modules.size (before ++ Bytes.chain passed).size modules := by
  induction passed generalizing before with
  | nil => simp
  | cons image passed ih =>
    obtain ⟨hmodule, htitle⟩ := hpassed image List.mem_cons_self
    rw [Bytes.chain_cons, Array.append_assoc] at hmodules
    have hrest : modules = before ++ image ++ (Bytes.chain passed ++ rest) := by
      rw [hmodules, Array.append_assoc]
    have hpass := ih (fun m hm => hpassed m (List.mem_cons_of_mem image hm)) (before ++ image) hrest
    rw [locate_module hmodule before _ hmodules, if_neg htitle, ← Array.size_append, hpass,
      Bytes.chain_cons, Array.append_assoc]

/-! ## The replacement -/

theorem replace_of_locate {start size : Nat}
    (h : locate modules.size 0 modules = ⟨.ok (start, size), modules, []⟩)
    (hfits : start + size ≤ modules.size) (hlimit : start + size < positionLimit)
    (injector : Bytes) :
    (replace injector modules).result =
      .ok (modules.splice start size injector, start, size) := by
  unfold replace
  rw [Run.bind_of_eq_ok (m := get) rfl, Run.bind_of_eq_ok h]
  dsimp only
  rw [if_neg (Nat.not_lt.2 hfits), Bytes.replaceRange_of_fits hfits hlimit]
  rfl

/-- Whatever the bytes, what is replaced is the content of a header the walk comes to. -/
theorem replace_eq_ok {rebuilt : Bytes}
    (h : (replace injector modules).result = .ok (rebuilt, start, size)) :
    Located modules start size ∧ start + size ≤ modules.size ∧
      rebuilt = modules.splice start size injector := by
  unfold replace at h
  rw [Run.bind_of_eq_ok (m := get) rfl] at h
  obtain ⟨⟨start', size'⟩, hlocate, h⟩ := Run.of_bind_ok h
  have hsame : (locate modules.size 0 modules).state = modules :=
    (safe_locate modules 0 modules rfl).1
  dsimp only at h
  rw [hsame] at h
  split at h
  · cases h
  · next hfits =>
    obtain ⟨rebuilt', hspliced, h⟩ := Run.of_bind_ok h
    obtain ⟨rfl, hplace⟩ := Prod.mk.inj (Except.ok.inj h)
    obtain ⟨rfl, rfl⟩ := Prod.mk.inj hplace
    have hrebuilt := Run.eq_ok_of_mapError (Run.ofExcept_eq_ok hspliced)
    exact ⟨located_of_locate .start hlocate, Nat.not_lt.1 hfits, Bytes.replaceRange_eq_ok hrebuilt⟩

/-- In front of the loader there are whole modules without its title: these are kept, and so is all
that follows it, modules or not. Of modules alone without that title none is replaced. Whatever the
bytes, the walk stays inside them and ends, and what was replaced is the content of a header with
the title that it came to. Positions in a section are 64 bits wide, and its size is one of them. -/
theorem replace_rebuilds (injector : Bytes) :
    (∀ (passed : List Bytes) (loader rest : Bytes),
      (∀ image ∈ passed, Module.IsModule image ∧ Module.titleOf image ≠ title) →
      Module.IsModule loader → Module.titleOf loader = title →
      (Bytes.chain passed ++ loader ++ rest).size < positionLimit →
        (replace injector (Bytes.chain passed ++ loader ++ rest)).result =
          .ok (Bytes.chain passed ++ injector ++ rest, (Bytes.chain passed).size, loader.size)) ∧
    (∀ images : List Bytes,
      (∀ image ∈ images, Module.IsModule image ∧ Module.titleOf image ≠ title) →
        (replace injector (Bytes.chain images)).result = .error (.failed (.missing target))) ∧
    ∀ modules : Bytes, (replace injector modules).state = modules ∧
      ((∃ rebuilt start size,
          (replace injector modules).result = .ok (rebuilt, start, size) ∧
          Located modules start size ∧ start + size ≤ modules.size ∧
          rebuilt = modules.extract 0 start ++ injector ++
            modules.extract (start + size) modules.size) ∨
        ∃ err, (replace injector modules).result = .error (.failed err)) := by
  refine ⟨fun passed loader rest hpassed hloader htitle hlimit => ?_, fun images himages => ?_,
    fun modules => ?_⟩
  · have hmodules : Bytes.chain passed ++ loader ++ rest =
        #[] ++ (Bytes.chain passed ++ (loader ++ rest)) := by simp
    have hlocate : locate (Bytes.chain passed ++ loader ++ rest).size 0
        (Bytes.chain passed ++ loader ++ rest) =
          ⟨.ok ((Bytes.chain passed).size, loader.size),
            Bytes.chain passed ++ loader ++ rest, []⟩ := by
      have hwalk := locate_chain hpassed #[] (loader ++ rest) hmodules
      rw [Array.empty_append] at hwalk
      rw [Array.size_empty] at hwalk
      rw [hwalk, locate_module hloader _ rest Array.append_assoc, if_pos htitle]
    have hfits : (Bytes.chain passed).size + loader.size ≤
        (Bytes.chain passed ++ loader ++ rest).size := by
      rw [Array.size_append, Array.size_append]
      omega
    rw [replace_of_locate hlocate hfits (by omega), Bytes.splice_between]
  · have hmodules : Bytes.chain images = #[] ++ (Bytes.chain images ++ #[]) := by simp
    have hwalk := locate_chain himages #[] #[] hmodules
    rw [Array.empty_append, Array.size_empty, locate_of_le (Nat.le_refl _)] at hwalk
    unfold replace
    rw [Run.bind_of_eq_ok (m := get) rfl, Run.bind_of_eq_error hwalk]
  · obtain ⟨hkept, hends⟩ := safe_replace injector modules modules rfl
    refine ⟨hkept, hends.cases.imp ?_ id⟩
    rintro ⟨⟨rebuilt, start, size⟩, hok, -⟩
    exact ⟨rebuilt, start, size, hok, replace_eq_ok hok⟩

/-- A module of two media units that holds its headers and nothing else. -/
def bareModule (title : List UInt8) : Bytes :=
  (List.replicate 0x100 0 ++ ([0x4E, 0x43, 0x43, 0x48, 0x02] ++ (List.replicate 0xFB 0 ++
    (title ++ List.replicate (0x200 - title.length) 0)))).toArray

/-- The module `sm` is passed, and the three bytes behind the loader move up. -/
theorem replace_rebuilds_second :
    let passed := bareModule [0x73, 0x6D]
    let loader := bareModule [0x6C, 0x6F, 0x61, 0x64, 0x65, 0x72]
    (Module.IsModule passed ∧ Module.titleOf passed ≠ title) ∧
      (Module.IsModule loader ∧ Module.titleOf loader = title) ∧
      (Bytes.chain [passed] ++ loader ++ #[7, 8, 9]).size < positionLimit ∧
      (replace #[1, 2] (Bytes.chain [passed] ++ loader ++ #[7, 8, 9])).result =
        .ok (passed ++ #[1, 2, 7, 8, 9], 0x400, 0x400) := by
  intro passed loader
  have hpassed : Module.IsModule passed ∧ Module.titleOf passed ≠ title :=
    ⟨⟨by decide +kernel, by decide +kernel, by decide +kernel⟩, by decide +kernel⟩
  have hloader : Module.IsModule loader ∧ Module.titleOf loader = title :=
    ⟨⟨by decide +kernel, by decide +kernel, by decide +kernel⟩, by decide +kernel⟩
  have hsize : passed.size = 0x400 ∧ loader.size = 0x400 := by decide +kernel
  have hlimit : (Bytes.chain [passed] ++ loader ++ #[7, 8, 9]).size < positionLimit := by
    simp [hsize, positionLimit]
  have hreplaced := (replace_rebuilds #[1, 2]).1 [passed] loader #[7, 8, 9]
    (by simpa using hpassed) hloader.1 hloader.2 hlimit
  refine ⟨hpassed, hloader, hlimit, ?_⟩
  rw [hreplaced]
  simp [hsize]

end Loader
end BootStage
