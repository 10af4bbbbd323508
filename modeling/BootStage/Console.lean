import BootStage.Bytes.Basic
/-!
# Consoles and firmware titles

The two hardware revisions, the four firmware titles they run, and the NANDs a title can be
read from and run on.
-/

namespace BootStage

inductive Model where
  | old
  | new
  deriving DecidableEq, Repr

namespace Model

def choose {α : Type} (model : Model) (old new : α) : α :=
  match model with
  | .old => old
  | .new => new

def index (model : Model) : Nat :=
  model.choose 0 1

/-- Bits 8 to 15 of the ARM9 load address of firmwares built for the model. -/
def arm9Marker (model : Model) : UInt8 :=
  model.choose 0x68 0x60

def name (model : Model) : String :=
  model.choose "Old" "New"

end Model

inductive Title where
  /-- The regular system firmware. -/
  | native
  /-- DS and DSi backwards compatibility. -/
  | twl
  /-- GBA backwards compatibility. -/
  | agb
  /-- The recovery firmware of system updates. -/
  | safe
  deriving DecidableEq, Repr

namespace Title

def name : Title → String
  | native => "Native"
  | twl => "Twl"
  | agb => "Agb"
  | safe => "Safe"

def idLow : Title → UInt32
  | native => 0x002
  | twl => 0x102
  | agb => 0x202
  | safe => 0x003

/-- Backwards-compatibility titles are patched at fixed offsets instead of by search. -/
def isFixedOffset : Title → Bool
  | twl | agb => true
  | native | safe => false

def arm9Slot (title : Title) : Nat :=
  if title.isFixedOffset then 3 else 2

def imagePath : Title → String
  | native => "/ctrboot/firmware.bin"
  | twl => "/ctrboot/firmware_twl.bin"
  | agb => "/ctrboot/firmware_agb.bin"
  | safe => "/ctrboot/firmware_safe.bin"

end Title

/-- A NAND that firmware is read from or runs on. -/
inductive Nand where
  /-- The memory built into the console. -/
  | sys
  | emu (slot : Nat)
  deriving DecidableEq, Repr

namespace Nand

def name : Nand → String
  | sys => "SysNand"
  | emu slot => s!"EmuNand({slot})"

end Nand

/-- Place of a NAND image on the SD card, in sectors. -/
structure ImageLocation where
  /-- Slot the image was found in. -/
  slot : Nat
  /-- Added to the sector of every redirected access. -/
  redirect : UInt32
  /-- Sector of the image's NAND header. -/
  header : UInt32
  deriving DecidableEq, Repr

end BootStage
