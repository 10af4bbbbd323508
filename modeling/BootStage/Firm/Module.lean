import BootStage.Bytes.Word
/-!
# Packed modules

System modules and Process9 are packed as NCCH contents: a header of 0x200 bytes, followed by
an extended header whose first part names the module and places its code. Sizes and offsets
are counted in media units of 0x200 bytes.
-/

namespace BootStage

structure CodeSet where
  address : UInt32
  pages : UInt32
  size : UInt32
  deriving DecidableEq, Repr

/-- The leading part of an extended header. -/
structure ExtendedHeader where
  title : Bytes
  flag : UInt8
  remaster : Bytes
  text : CodeSet
  deriving DecidableEq, Repr

namespace ExtendedHeader

def size : Nat := 0x1C

def read (b : Bytes) (pos : Nat) : ExtendedHeader where
  title := b.window pos 8
  flag := b.byte (pos + 0xD)
  remaster := b.window (pos + 0xE) 2
  text := ⟨b.word (pos + 0x10), b.word (pos + 0x14), b.word (pos + 0x18)⟩

end ExtendedHeader

/-- A region of a module, in media units. -/
structure Region where
  offset : UInt32
  size : UInt32
  deriving DecidableEq, Repr

/-- A file system region of a module: its start is covered by a hash. -/
structure HashedRegion extends Region where
  hashSize : UInt32
  hash : Bytes
  deriving DecidableEq, Repr

structure ModuleHeader where
  signature : Bytes
  contentUnits : UInt32
  partitionId : Bytes
  makerCode : Bytes
  version : UInt16
  programId : Bytes
  logoHash : Bytes
  productCode : Bytes
  extendedHash : Bytes
  extendedSize : UInt32
  flags : Bytes
  plain : Region
  logo : Region
  exefs : HashedRegion
  romfs : HashedRegion
  deriving DecidableEq, Repr

namespace ModuleHeader

def size : Nat := 0x200

def magic : Bytes := .ofAscii "NCCH"

def read (b : Bytes) : ModuleHeader where
  signature := b.window 0 0x100
  contentUnits := b.word 0x104
  partitionId := b.window 0x108 8
  makerCode := b.window 0x110 2
  version := b.half 0x112
  programId := b.window 0x118 8
  logoHash := b.window 0x130 0x20
  productCode := b.window 0x150 0x10
  extendedHash := b.window 0x160 0x20
  extendedSize := b.word 0x180
  flags := b.window 0x188 8
  plain := ⟨b.word 0x190, b.word 0x194⟩
  logo := ⟨b.word 0x198, b.word 0x19C⟩
  exefs := ⟨⟨b.word 0x1A0, b.word 0x1A4⟩, b.word 0x1A8, b.window 0x1C0 0x20⟩
  romfs := ⟨⟨b.word 0x1B0, b.word 0x1B4⟩, b.word 0x1B8, b.window 0x1E0 0x20⟩

end ModuleHeader

inductive ModuleFailure where
  | tooShort (required available : Nat)
  | wrongMagic (found : Bytes)
  deriving DecidableEq, Repr

structure Module where
  header : ModuleHeader
  /-- Missing when the bytes end before it does. -/
  extended : Option ExtendedHeader
  deriving DecidableEq, Repr

namespace Module

def mediaBytes (units : UInt32) : Nat :=
  0x200 * units.toNat

/-- What is read of a module lies in this many bytes at its start. -/
def headSize : Nat := ModuleHeader.size + ExtendedHeader.size

/-- Reads the module at the start of `bytes`, which may go on after its content. -/
def parse (bytes : Bytes) : Except ModuleFailure Module :=
  if bytes.size < ModuleHeader.size then
    .error (.tooShort ModuleHeader.size bytes.size)
  else if bytes.window 0x100 4 ≠ ModuleHeader.magic then
    .error (.wrongMagic (bytes.window 0x100 4))
  else
    .ok
      { header := .read bytes
        extended :=
          if headSize ≤ bytes.size then
            some (.read bytes ModuleHeader.size)
          else none }

theorem parse_of_sound {bytes : Bytes} (hsize : headSize ≤ bytes.size)
    (hmagic : bytes.window 0x100 4 = ModuleHeader.magic) :
    parse bytes = .ok ⟨.read bytes, some (.read bytes ModuleHeader.size)⟩ := by
  have hlong : ModuleHeader.size ≤ bytes.size := Nat.le_trans (Nat.le_add_right _ _) hsize
  rw [parse, if_neg (Nat.not_lt.2 hlong), if_neg (not_not_intro hmagic), if_pos hsize]

def contentBytes (m : Module) : Nat :=
  mediaBytes m.header.contentUnits

def title? (m : Module) : Option Bytes :=
  m.extended.map fun ext => ext.title.takeWhile (· ≠ 0)

end Module
end BootStage
