import BootStage.Console
/-!
# The configuration word

All options and the record of the last cold boot share one 32-bit word. `Field.shift` and
`Field.width` are its layout; reading and setting a field follow from them. Bits that belong
to no field are kept as they are.
-/

namespace BootStage

structure Config where
  word : UInt32
  deriving DecidableEq, Repr

namespace Config

/-- A field of the configuration word, in the order of its bits. -/
inductive Field where
  /-- NAND booted last: 0 for the built-in one, else the slot of an image. -/
  | nandUsed
  | sourceUsed
  /-- The boot stage is installed in the firmware partitions. -/
  | installed
  /-- Do not force the last boot's options on the next reboot. -/
  | unforced
  /-- The last cold boot was a recovery boot. -/
  | recovered
  | brightness
  /-- Length of the PIN, 0 for none. -/
  | pin
  /-- When the splash is shown, 0 for never. -/
  | splash
  | developer
  /-- Boot the built-in NAND unless L is held. -/
  | prefersBuiltIn
  /-- With R held, boot an image with the built-in firmware instead of the reverse. -/
  | builtInFirmware
  | secondImage
  /-- Prefer firmware images from the SD card. -/
  | loadExternal
  | showsGbaScreen
  | payloadScreen
  | liftAccess
  deriving DecidableEq, Repr

namespace Field

def shift : Field → Nat
  | nandUsed => 0
  | sourceUsed => 3
  | installed => 6
  | unforced => 7
  | recovered => 8
  | brightness => 9
  | pin => 11
  | splash => 13
  | developer => 15
  | prefersBuiltIn => 20
  | builtInFirmware => 21
  | secondImage => 22
  | loadExternal => 23
  | showsGbaScreen => 25
  | payloadScreen => 26
  | liftAccess => 27

def width : Field → Nat
  | nandUsed | sourceUsed => 3
  | brightness | pin | splash | developer => 2
  | _ => 1

end Field

def empty : Config := ⟨0⟩

def get (config : Config) (field : Field) : Nat :=
  (config.word.toNat >>> field.shift) % (1 <<< field.width)

def isOn (config : Config) (field : Field) : Bool :=
  config.get field ≠ 0

/-- The word with `field` set to `value`, when the value fits the field's width. -/
def set? (config : Config) (field : Field) (value : Nat) : Option Config :=
  if value < 1 <<< field.width then
    let cleared := config.word.toNat - config.get field <<< field.shift
    some ⟨UInt32.ofNat (cleared + value <<< field.shift)⟩
  else none

def nandOf : Nat → Nand
  | 0 => .sys
  | slot + 1 => .emu (slot + 1)

def codeOf : Nand → Nat
  | .sys => 0
  | .emu slot => slot

def recordedNand (config : Config) : Nand :=
  nandOf (config.get .nandUsed)

def recordedSource (config : Config) : Nand :=
  nandOf (config.get .sourceUsed)

/-- Image slot used when no direction is held. -/
def defaultSlot (config : Config) : Nat :=
  if config.isOn .secondImage then 2 else 1

/-- The word with a cold boot's choices recorded. A slot wider than its field cannot be. -/
def recording? (config : Config) (nand source : Nand) (title : Title) : Option Config := do
  let config ← config.set? .nandUsed (codeOf nand)
  let config ← config.set? .sourceUsed (codeOf source)
  config.set? .recovered (if title = .safe then 1 else 0)

end Config
end BootStage
