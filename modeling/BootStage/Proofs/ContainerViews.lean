import BootStage.Proofs.PatchFrame
import Mathlib.Data.List.Basic
/-!
# Containers and their views

Bytes are a container when they have a whole header, start with the magic and every used slot
ends inside them. The first of these that fails is the one reported.

A view of a container captures its header. Whatever is then written through the view, over the
header's own bytes too, the sections stay where they were captured.
-/

namespace BootStage

namespace Firm

/-! ## What is a container -/

def slotOffset (bytes : Bytes) (slot : Nat) : UInt32 :=
  bytes.word (0x40 + 0x30 * slot)

def slotSize (bytes : Bytes) (slot : Nat) : UInt32 :=
  bytes.word (0x48 + 0x30 * slot)

def SlotFits (bytes : Bytes) (slot : Nat) : Prop :=
  slotSize bytes slot ≠ 0 →
    (slotOffset bytes slot).toNat + (slotSize bytes slot).toNat ≤ bytes.size

/-- The first thing that keeps bytes from being a container. -/
inductive FirstFault (bytes : Bytes) : FirmFailure → Prop where
  | tooShort (hsize : bytes.size < 0x200) : FirstFault bytes (.tooShort 0x200 bytes.size)
  | wrongMagic (hsize : 0x200 ≤ bytes.size) (hmagic : bytes.window 0 4 ≠ .ofAscii "FIRM") :
      FirstFault bytes (.wrongMagic (bytes.window 0 4))
  | overrun (hsize : 0x200 ≤ bytes.size) (hmagic : bytes.window 0 4 = .ofAscii "FIRM")
      (slot : Nat) (hslot : slot < 4) (hlower : ∀ lower < slot, SlotFits bytes lower)
      (hout : ¬SlotFits bytes slot) :
      FirstFault bytes
        (.sectionOverrun slot (slotOffset bytes slot) (slotSize bytes slot) bytes.size)

theorem size_readSlot (bytes : Bytes) (slot : Nat) :
    (ContainerHeader.readSlot bytes (0x40 + 0x30 * slot)).size = slotSize bytes slot := by
  simp only [ContainerHeader.readSlot, slotSize, Nat.add_right_comm, Nat.reduceAdd]

theorem section?_read (bytes : Bytes) {slot : Nat} (hslot : slot < 4) :
    (ContainerHeader.read bytes).section? slot =
      if slotSize bytes slot = 0 then none
      else some { ContainerHeader.readSlot bytes (0x40 + 0x30 * slot) with index := slot } := by
  have hentry : (ContainerHeader.read bytes).sections[slot] =
      ContainerHeader.readSlot bytes (0x40 + 0x30 * slot) := Vector.getElem_ofFn hslot
  rw [ContainerHeader.section?, dif_pos hslot]
  simp only [hentry, size_readSlot]

def slotFault? (bytes : Bytes) (slot : Nat) : Option FirmFailure :=
  if slotSize bytes slot = 0 then none
  else if bytes.size < (slotOffset bytes slot).toNat + (slotSize bytes slot).toNat then
    some (.sectionOverrun slot (slotOffset bytes slot) (slotSize bytes slot) bytes.size)
  else none

theorem slotFault?_eq_none_iff (bytes : Bytes) (slot : Nat) :
    slotFault? bytes slot = none ↔ SlotFits bytes slot := by
  unfold slotFault? SlotFits
  split
  · next hunused => exact ⟨fun _ hused => absurd hunused hused, fun _ => rfl⟩
  · next hused =>
    split
    · next hout => exact ⟨nofun, fun hfits => absurd (hfits hused) (Nat.not_le.2 hout)⟩
    · next hin => exact ⟨fun _ _ => Nat.not_lt.1 hin, fun _ => rfl⟩

theorem overrun?_eq_findSome? (bytes : Bytes) :
    overrun? (ContainerHeader.read bytes) bytes.size =
      (List.range 4).findSome? (slotFault? bytes) := by
  unfold overrun? ContainerHeader.sectionList
  rw [← List.head?_filterMap, List.filterMap_filterMap, ← List.head?_filterMap]
  congr 1
  apply List.filterMap_congr
  intro slot hmem
  have hslot : slot < 4 := List.mem_range.1 hmem
  rw [section?_read bytes hslot, slotFault?]
  split
  · rfl
  · next hused =>
    rw [Option.bind_some]
    simp only [Section.stop, Section.start, size_readSlot]
    rfl

/-- What the search for an overrun reports is the fault of the lowest slot that has one. -/
theorem overrun?_eq_some {bytes : Bytes} {err : FirmFailure}
    (h : overrun? (ContainerHeader.read bytes) bytes.size = some err) :
    ∃ slot < 4, slotFault? bytes slot = some err ∧ ∀ lower < slot, SlotFits bytes lower := by
  rw [overrun?_eq_findSome?] at h
  obtain ⟨before, slot, after, hsplit, hfault, hbefore⟩ := List.findSome?_eq_some_iff.1 h
  have hmem : slot ∈ List.range 4 := by
    rw [hsplit]
    exact List.mem_append_right _ List.mem_cons_self
  refine ⟨slot, List.mem_range.1 hmem, hfault, fun lower hlower => ?_⟩
  have hlowerMem : lower ∈ before ++ slot :: after := by
    rw [← hsplit]
    exact List.mem_range.2 (by have := List.mem_range.1 hmem; omega)
  -- The slots are listed in ascending order, so a lower one stands in front.
  have hsorted : (before ++ slot :: after).Pairwise (· < ·) := by
    rw [← hsplit]
    exact List.pairwise_lt_range
  have hafter := (List.pairwise_cons.1 (List.pairwise_append.1 hsorted).2.1).1
  rcases List.mem_append.1 hlowerMem with hin | hin
  · exact (slotFault?_eq_none_iff bytes lower).1 (hbefore lower hin)
  · rcases List.mem_cons.1 hin with rfl | hin
    · omega
    · have := hafter lower hin
      omega

theorem overrun?_eq_none_iff (bytes : Bytes) :
    overrun? (ContainerHeader.read bytes) bytes.size = none ↔
      ∀ slot < 4, SlotFits bytes slot := by
  rw [overrun?_eq_findSome?, List.findSome?_eq_none_iff]
  simp only [List.mem_range, slotFault?_eq_none_iff]

theorem firstFault_of_parse {bytes : Bytes} {err : FirmFailure}
    (h : parse bytes = .error err) : FirstFault bytes err := by
  unfold parse at h
  split at h
  · next hshort =>
    obtain rfl := Except.error.inj h
    exact .tooShort hshort
  · next hlong =>
    have hsize : 0x200 ≤ bytes.size := Nat.not_lt.1 hlong
    split at h
    · next hmagic =>
      obtain rfl := Except.error.inj h
      exact .wrongMagic hsize hmagic
    · next hmagic =>
      dsimp only at h
      split at h
      · next other hover =>
        obtain rfl := Except.error.inj h
        obtain ⟨slot, hslot, hfault, hlower⟩ := overrun?_eq_some hover
        have hout : ¬SlotFits bytes slot := by
          rw [← slotFault?_eq_none_iff, hfault]
          nofun
        unfold slotFault? at hfault
        split at hfault
        · cases hfault
        · split at hfault
          · obtain rfl := Option.some.inj hfault
            exact .overrun hsize (Decidable.not_not.1 hmagic) slot hslot hlower hout
          · cases hfault
      · cases h

theorem parse_eq_ok_iff (bytes : Bytes) (firm : Firm) :
    parse bytes = .ok firm ↔
      0x200 ≤ bytes.size ∧ bytes.window 0 4 = .ofAscii "FIRM" ∧
        (∀ slot < 4, SlotFits bytes slot) ∧ firm = ⟨ContainerHeader.read bytes, bytes⟩ := by
  constructor
  · intro h
    obtain ⟨hsize, hmagic, hfirm, hnone⟩ := parse_eq_ok h
    exact ⟨hsize, hmagic, (overrun?_eq_none_iff bytes).1 hnone, hfirm⟩
  · rintro ⟨hsize, hmagic, hfits, rfl⟩
    exact parse_of_sound hsize hmagic ((overrun?_eq_none_iff bytes).2 hfits)

theorem parse_eq_error_iff (bytes : Bytes) (err : FirmFailure) :
    parse bytes = .error err ↔ FirstFault bytes err := by
  constructor
  · exact firstFault_of_parse
  · intro hfault
    cases hparse : parse bytes with
    | ok firm =>
      obtain ⟨hsize, hmagic, hfits, -⟩ := (parse_eq_ok_iff bytes firm).1 hparse
      cases hfault with
      | tooShort hshort => omega
      | wrongMagic _ hwrong => exact absurd hmagic hwrong
      | overrun _ _ slot hslot _ hout => exact absurd (hfits slot hslot) hout
    | error other =>
      -- Of two faults neither comes first.
      have hother := firstFault_of_parse hparse
      congr 1
      cases hfault with
      | tooShort hshort =>
        cases hother with
        | tooShort => rfl
        | wrongMagic hsize | overrun hsize => omega
      | wrongMagic hsize hwrong =>
        cases hother with
        | tooShort hshort => omega
        | wrongMagic => rfl
        | overrun _ hmagic => exact absurd hmagic hwrong
      | overrun hsize hmagic slot hslot hlower hout =>
        cases hother with
        | tooShort hshort => omega
        | wrongMagic _ hwrong => exact absurd hmagic hwrong
        | overrun _ _ slot' _ hlower' hout' =>
          have hsame : slot' = slot := by
            rcases Nat.lt_trichotomy slot' slot with hlt | heq | hgt
            · exact absurd (hlower slot' hlt) hout'
            · exact heq
            · exact absurd (hlower' slot hgt) hout
          rw [hsame]

theorem size_payload {firm : Firm} {s : Section} (h : s.stop ≤ firm.bytes.size) :
    (firm.payload s).size = s.size.toNat := by
  unfold Section.stop at h
  rw [payload, Array.size_extract, Section.stop]
  omega

theorem byte_payload {firm : Firm} {s : Section} (h : s.stop ≤ firm.bytes.size) {i : Nat}
    (hi : i < s.size.toNat) : (firm.payload s).byte i = firm.bytes.byte (s.start + i) := by
  unfold Section.stop at h
  rw [payload, Bytes.byte, Array.getElem?_extract, if_pos (by unfold Section.stop; omega),
    Bytes.byte]

theorem size_payload_lt (firm : Firm) (s : Section) : (firm.payload s).size < positionLimit := by
  have hsize := s.size.toNat_lt
  unfold payload Section.stop positionLimit
  rw [Array.size_extract]
  omega

end Firm

/-! ## Sections of a captured header -/

namespace ContainerHeader

variable {header : ContainerHeader}

theorem section?_eq_some_iff {slot : Nat} {s : Section} :
    header.section? slot = some s ↔
      ∃ hslot : slot < 4, header.sections[slot].size ≠ 0 ∧
        s = { header.sections[slot] with index := slot } := by
  unfold section?
  by_cases hslot : slot < 4
  · by_cases hused : header.sections[slot].size = 0
    · simp [hslot, hused]
    · simp [hslot, hused, eq_comm]
  · simp [hslot]

theorem index_of_section? {slot : Nat} {s : Section} (h : header.section? slot = some s) :
    s.index = slot := by
  obtain ⟨_, -, rfl⟩ := section?_eq_some_iff.1 h
  rfl

theorem isSome_section?_iff {slot : Nat} :
    (header.section? slot).isSome ↔ ∃ hslot : slot < 4, header.sections[slot].size ≠ 0 := by
  simp [Option.isSome_iff_exists, section?_eq_some_iff]

theorem mem_sectionList {s : Section} :
    s ∈ header.sectionList ↔ header.section? s.index = some s := by
  unfold sectionList
  rw [List.mem_filterMap]
  constructor
  · rintro ⟨slot, -, hs⟩
    rw [index_of_section? hs]
    exact hs
  · intro hs
    obtain ⟨hslot, -⟩ := section?_eq_some_iff.1 hs
    exact ⟨s.index, List.mem_range.2 hslot, hs⟩

theorem sectionList_ascending :
    header.sectionList.Pairwise fun lower upper => lower.index < upper.index := by
  unfold sectionList
  rw [List.pairwise_filterMap]
  refine List.pairwise_lt_range.imp fun hlt lower hlower upper hupper => ?_
  rw [index_of_section? hlower, index_of_section? hupper]
  exact hlt

end ContainerHeader

/-! ## Access to a section -/

namespace FirmEdit

variable {α : Type} {firm : Firm} {slot : Nat}

theorem onSection_of_none (h : firm.section? slot = none) (target : String)
    (edit : Section → Edit α) :
    onSection slot target edit firm = ⟨.error (.failed (.missing target)), firm, []⟩ := by
  unfold onSection
  rw [Run.bind_of_ok (m := get) (a := firm) rfl, h]
  rfl

theorem onSection_of_some {s : Section} (h : firm.section? slot = some s)
    (hfits : s.stop ≤ firm.bytes.size) (target : String) (edit : Section → Edit α) :
    onSection slot target edit firm =
      let out := edit s (firm.payload s)
      ⟨out.result, { firm with bytes := firm.bytes.overwrite s.start out.state }, out.events⟩ := by
  have hrange : s.start ≤ s.stop := Nat.le_add_right _ _
  have hbytes : onSection slot target edit firm =
      onBytes (Edit.within s.start s.stop (edit s)) firm := by
    unfold onSection
    rw [Run.bind_of_ok (m := get) (a := firm) rfl, h]
    rfl
  -- The container around the bytes that a run on them comes to.
  let around (out : Outcome Notice PatchFailure Bytes α) : Outcome Notice PatchFailure Firm α :=
    ⟨out.result, { firm with bytes := out.state }, out.events⟩
  calc onSection slot target edit firm
      = around (Edit.within s.start s.stop (edit s) firm.bytes) := hbytes
    _ = around (Run.onPart (·.extract s.start s.stop) (·.overwrite s.start) (edit s)
          firm.bytes) := congrArg around (Edit.within_apply hrange hfits)

end FirmEdit

/-! ## Runs of a view -/

/-- A write through a slice of bytes: an edit of any kind that keeps their number. -/
structure SliceWrite where
  edit : Edit Unit
  size_state : ∀ image : Bytes, (edit image).state.size = image.size

namespace SliceWrite

theorem size_write (target : String) (pos : Nat) (data image : Bytes) :
    (Edit.write target pos data image).state.size = image.size :=
  (Edit.confined_write target pos data image rfl).1

def laying (pos : Nat) (data : Bytes) : SliceWrite where
  edit := Edit.write "" pos data
  size_state := size_write "" pos data

end SliceWrite

namespace Firm

/-- Something done through a mutable view of a container. -/
inductive Step where
  | setArm9Entry (entry : UInt32)
  | writeSection (slot : Nat) (write : SliceWrite)
  /-- Writes through the slice of the whole container. -/
  | writeBytes (write : SliceWrite)

namespace Step

def apply : Step → Firm → Firm
  | setArm9Entry entry, firm => firm.withArm9Entry entry
  | writeSection slot write, firm => (FirmEdit.onSection slot "" (fun _ => write.edit) firm).state
  | writeBytes write, firm => (FirmEdit.onBytes write.edit firm).state

def entry? : Step → Option UInt32
  | setArm9Entry entry => some entry
  | writeSection _ _ | writeBytes _ => none

end Step

def after (firm : Firm) (steps : List Step) : Firm :=
  steps.foldl (fun firm step => step.apply firm) firm

/-- The captured sections and the number of bytes are the same. -/
structure SameLayout (before after : Firm) : Prop where
  size : after.bytes.size = before.bytes.size
  sections : after.header.sections = before.header.sections

namespace SameLayout

variable {before middle after : Firm}

theorem refl (firm : Firm) : SameLayout firm firm :=
  ⟨rfl, rfl⟩

theorem trans (h : SameLayout before middle) (h' : SameLayout middle after) :
    SameLayout before after :=
  ⟨h'.size.trans h.size, h'.sections.trans h.sections⟩

theorem section? (h : SameLayout before after) (slot : Nat) :
    after.section? slot = before.section? slot := by
  simp only [Firm.section?, ContainerHeader.section?, h.sections]

theorem sectionsFit (h : SameLayout before after) (hfits : before.SectionsFit) :
    after.SectionsFit := by
  intro slot s hs
  rw [h.section?] at hs
  rw [h.size]
  exact hfits slot s hs

end SameLayout

/-- One step keeps the layout, and moves the entrypoint only where it says so. -/
theorem sameLayout_apply {firm : Firm} (hfits : firm.SectionsFit) (step : Step) :
    firm.SameLayout (step.apply firm) ∧
      (step.apply firm).header.arm9Entry = step.entry?.getD firm.header.arm9Entry := by
  cases step with
  | setArm9Entry entry => exact ⟨⟨size_withArm9Entry firm entry, rfl⟩, rfl⟩
  | writeSection slot write =>
    have happly : (Step.writeSection slot write).apply firm =
        (FirmEdit.onSection slot "" (fun _ => write.edit) firm).state := rfl
    cases hs : firm.section? slot with
    | none =>
      rw [happly, FirmEdit.onSection_of_none hs]
      exact ⟨.refl firm, rfl⟩
    | some s =>
      rw [happly, FirmEdit.onSection_of_some hs (hfits slot s hs)]
      exact ⟨⟨Bytes.size_overwrite _ _ _, rfl⟩, rfl⟩
  | writeBytes write => exact ⟨⟨write.size_state firm.bytes, rfl⟩, rfl⟩

theorem sameLayout_after {firm : Firm} (hfits : firm.SectionsFit) (steps : List Step) :
    firm.SameLayout (firm.after steps) := by
  induction steps generalizing firm with
  | nil => exact .refl firm
  | cons step rest ih =>
    have hstep := (sameLayout_apply hfits step).1
    exact hstep.trans (ih (hstep.sectionsFit hfits))

theorem arm9Entry_after {firm : Firm} (hfits : firm.SectionsFit) (steps : List Step) :
    (firm.after steps).header.arm9Entry =
      (steps.filterMap Step.entry?).getLastD firm.header.arm9Entry := by
  induction steps generalizing firm with
  | nil => rfl
  | cons step rest ih =>
    obtain ⟨hlayout, hentry⟩ := sameLayout_apply hfits step
    have hrest := ih (hlayout.sectionsFit hfits)
    rw [hentry] at hrest
    cases hset : step.entry? with
    | none =>
      rw [hset] at hrest
      rw [List.filterMap_cons_none hset]
      exact hrest
    | some entry =>
      rw [hset] at hrest
      rw [List.filterMap_cons_some hset, List.getLastD_cons]
      exact hrest

/-- What a view of a container keeps to during a run of steps. -/
structure Steady (firm : Firm) (steps : List Step) : Prop where
  size : (firm.after steps).bytes.size = firm.bytes.size
  sections : ∀ slot, (firm.after steps).section? slot = firm.section? slot
  /-- A slot has a section just when its size is not zero. -/
  present : ∀ slot, ((firm.after steps).section? slot).isSome ↔
    ∃ hslot : slot < 4, firm.header.sections[slot].size ≠ 0
  /-- The slice of a section lies inside the container, is as long as the section, and is what
  an edit of the section works on. -/
  slice : ∀ slot s, (firm.after steps).section? slot = some s →
    s.stop ≤ (firm.after steps).bytes.size ∧
      ((firm.after steps).payload s).size = s.size.toNat ∧
      ∀ target (edit : Section → Edit Unit),
        let out := edit s ((firm.after steps).payload s)
        FirmEdit.onSection slot target edit (firm.after steps) =
          ⟨out.result, { firm.after steps with
            bytes := (firm.after steps).bytes.overwrite s.start out.state }, out.events⟩
  /-- There is no slice of an unused slot. -/
  noSlice : ∀ slot, (firm.after steps).section? slot = none →
    ∀ target (edit : Section → Edit Unit),
      FirmEdit.onSection slot target edit (firm.after steps) =
        ⟨.error (.failed (.missing target)), firm.after steps, []⟩
  listed : ∀ s, s ∈ (firm.after steps).header.sectionList ↔ firm.section? s.index = some s
  ascending : (firm.after steps).header.sectionList.Pairwise
    fun lower upper => lower.index < upper.index
  entry : (firm.after steps).header.arm9Entry =
    (steps.filterMap Step.entry?).getLastD firm.header.arm9Entry

theorem steady_of_sectionsFit {firm : Firm} (hfits : firm.SectionsFit) (steps : List Step) :
    firm.Steady steps := by
  have hlayout := sameLayout_after hfits steps
  have hafter := hlayout.sectionsFit hfits
  constructor
  case size => exact hlayout.size
  case sections => exact hlayout.section?
  case present =>
    intro slot
    rw [hlayout.section?]
    exact ContainerHeader.isSome_section?_iff
  case slice =>
    intro slot s hs
    have hstop := hafter slot s hs
    exact ⟨hstop, size_payload hstop,
      fun target edit => FirmEdit.onSection_of_some hs hstop target edit⟩
  case noSlice => exact fun slot hs target edit => FirmEdit.onSection_of_none hs target edit
  case listed =>
    intro s
    rw [ContainerHeader.mem_sectionList]
    have hsame := hlayout.section? s.index
    simp only [Firm.section?] at hsame ⊢
    rw [hsame]
  case ascending => exact ContainerHeader.sectionList_ascending
  case entry => exact arm9Entry_after hfits steps

/-- Bytes are accepted just when they have a whole header, the magic and slots that fit, and else
the first of these that fails is reported. A view of what was accepted keeps its length, its
sections and their slices through every run of steps, and has the entrypoint set last. -/
theorem parse_exact_and_steady (bytes : Bytes) :
    ((∃ firm, parse bytes = .ok firm) ↔
      0x200 ≤ bytes.size ∧ bytes.window 0 4 = .ofAscii "FIRM" ∧
        ∀ slot < 4, SlotFits bytes slot) ∧
    (∀ err, parse bytes = .error err ↔ FirstFault bytes err) ∧
    ∀ firm, parse bytes = .ok firm →
      firm = ⟨ContainerHeader.read bytes, bytes⟩ ∧ ∀ steps, firm.Steady steps := by
  refine ⟨⟨?_, ?_⟩, parse_eq_error_iff bytes, fun firm hfirm => ⟨?_, fun steps => ?_⟩⟩
  · rintro ⟨firm, hfirm⟩
    obtain ⟨hsize, hmagic, hslots, -⟩ := (parse_eq_ok_iff bytes firm).1 hfirm
    exact ⟨hsize, hmagic, hslots⟩
  · rintro ⟨hsize, hmagic, hslots⟩
    exact ⟨_, (parse_eq_ok_iff bytes _).2 ⟨hsize, hmagic, hslots, rfl⟩⟩
  · exact ((parse_eq_ok_iff bytes firm).1 hfirm).2.2.2
  · exact steady_of_sectionsFit (sectionsFit_of_parse hfirm) steps

/-- A run that moves the entrypoint, wipes the header's slots, writes a section and moves the
entrypoint again. -/
theorem parse_exact_and_steady_oneSection :
    ∃ firm, parse PatchSet.oneSection = .ok firm ∧
      firm.Steady [.setArm9Entry 0x0801301C, .writeBytes (.laying 0x40 (Array.replicate 0xC0 0)),
        .writeSection 2 (.laying 1 #[1, 2, 3]), .setArm9Entry 0x0801B01C] :=
  ⟨_, PatchSet.parse_oneSection,
    ((parse_exact_and_steady PatchSet.oneSection).2.2 _ PatchSet.parse_oneSection).2 _⟩

end Firm
end BootStage
