import BootStage.Bytes.Word
import BootStage.Console
/-!
# Firmware containers

A container starts with a header of 0x200 bytes: the entrypoints and four section slots, each
giving a payload's place in the container and in memory. `Firm.parse` checks that every
payload lies inside the container; from then on the captured header is what counts, whatever
is written over its bytes.
-/

namespace BootStage

/-- Slot of a container header. A slot of size zero is unused. -/
structure SectionHeader where
  offset : UInt32
  address : UInt32
  size : UInt32
  copyMethod : UInt32
  /-- SHA-256 of the payload. -/
  hash : Bytes
  deriving DecidableEq, Repr

/-- A used slot of a container header. -/
structure Section extends SectionHeader where
  index : Nat
  deriving DecidableEq, Repr

namespace Section

def start (s : Section) : Nat :=
  s.offset.toNat

def stop (s : Section) : Nat :=
  s.start + s.size.toNat

end Section

structure ContainerHeader where
  bootPriority : UInt32
  arm11Entry : UInt32
  arm9Entry : UInt32
  sections : Vector SectionHeader 4
  signature : Bytes
  deriving DecidableEq, Repr

namespace ContainerHeader

def size : Nat := 0x200

def magic : Bytes := .ofAscii "FIRM"

def arm9EntryPos : Nat := 0xC

def readSlot (b : Bytes) (pos : Nat) : SectionHeader where
  offset := b.word pos
  address := b.word (pos + 4)
  size := b.word (pos + 8)
  copyMethod := b.word (pos + 0xC)
  hash := b.window (pos + 0x10) 0x20

def read (b : Bytes) : ContainerHeader where
  bootPriority := b.word 4
  arm11Entry := b.word 8
  arm9Entry := b.word arm9EntryPos
  sections := Vector.ofFn fun slot : Fin 4 => readSlot b (0x40 + 0x30 * slot.val)
  signature := b.window 0x100 0x100

/-- The section in slot `index`; an unused slot and one that does not exist have none. -/
def section? (header : ContainerHeader) (index : Nat) : Option Section :=
  if h : index < 4 then
    let slot := header.sections[index]
    if slot.size = 0 then none else some { slot with index }
  else none

def sectionList (header : ContainerHeader) : List Section :=
  (List.range 4).filterMap header.section?

/-- Whether the container was built for `model`: the load address of section 2 tells. -/
def isFor (header : ContainerHeader) (model : Model) : Bool :=
  UInt8.ofNat (header.sections[2].address.toNat / 0x100) == model.arm9Marker

end ContainerHeader

inductive FirmFailure where
  | tooShort (required available : Nat)
  | wrongMagic (found : Bytes)
  | sectionOverrun (index : Nat) (offset size : UInt32) (available : Nat)
  deriving DecidableEq, Repr

/-- A container together with the header captured when it was parsed. -/
structure Firm where
  header : ContainerHeader
  bytes : Bytes
  deriving DecidableEq, Repr

namespace Firm

/-- The lowest slot whose payload does not lie inside the container. -/
def overrun? (header : ContainerHeader) (available : Nat) : Option FirmFailure :=
  header.sectionList.findSome? fun s =>
    if available < s.stop then some (.sectionOverrun s.index s.offset s.size available)
    else none

/-- Reads a container. Size, magic and section bounds are checked in this order. -/
def parse (bytes : Bytes) : Except FirmFailure Firm :=
  if bytes.size < ContainerHeader.size then
    .error (.tooShort ContainerHeader.size bytes.size)
  else if bytes.window 0 4 ≠ ContainerHeader.magic then
    .error (.wrongMagic (bytes.window 0 4))
  else
    let header := ContainerHeader.read bytes
    match overrun? header bytes.size with
    | some err => .error err
    | none => .ok { header, bytes }

def section? (firm : Firm) (index : Nat) : Option Section :=
  firm.header.section? index

def payload (firm : Firm) (s : Section) : Bytes :=
  firm.bytes.extract s.start s.stop

def withArm9Entry (firm : Firm) (entry : UInt32) : Firm where
  header := { firm.header with arm9Entry := entry }
  bytes := firm.bytes.overwrite ContainerHeader.arm9EntryPos (.ofWord entry)

@[simp] theorem size_withArm9Entry (firm : Firm) (entry : UInt32) :
    (firm.withArm9Entry entry).bytes.size = firm.bytes.size := by
  simp only [withArm9Entry, Bytes.size_overwrite]

theorem parse_of_sound {bytes : Bytes} (hsize : ContainerHeader.size ≤ bytes.size)
    (hmagic : bytes.window 0 4 = ContainerHeader.magic)
    (hfits : overrun? (ContainerHeader.read bytes) bytes.size = none) :
    parse bytes = .ok ⟨ContainerHeader.read bytes, bytes⟩ := by
  rw [parse, if_neg (Nat.not_lt.2 hsize), if_neg (not_not_intro hmagic)]
  dsimp only
  rw [hfits]

theorem parse_eq_ok {bytes : Bytes} {firm : Firm} (h : parse bytes = .ok firm) :
    ContainerHeader.size ≤ bytes.size ∧ bytes.window 0 4 = ContainerHeader.magic ∧
      firm = ⟨ContainerHeader.read bytes, bytes⟩ ∧
      overrun? (ContainerHeader.read bytes) bytes.size = none := by
  unfold parse at h
  split at h
  · cases h
  · next hsize =>
    split at h
    · cases h
    · next hmagic =>
      dsimp only at h
      split at h
      · cases h
      · next hnone =>
        exact ⟨by omega, by simpa using hmagic, (Except.ok.inj h).symm, hnone⟩

end Firm
end BootStage
