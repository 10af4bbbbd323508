import BootStage.Config.Word
import BootStage.Failure
/-!
# The boot decision

`Plan.ofInputs` settles once which firmware to boot, from which NAND and how protected; the rest
of a boot follows the plan. A relaunch repeats what the configuration recorded, a cold boot
listens to the buttons held.
-/

namespace BootStage

/-- Pad buttons held together, one bit a button. -/
structure Buttons where
  bits : UInt32
  deriving DecidableEq, Repr

namespace Buttons

def none : Buttons := ⟨0⟩
def a : Buttons := ⟨0x001⟩
def right : Buttons := ⟨0x010⟩
def left : Buttons := ⟨0x020⟩
def up : Buttons := ⟨0x040⟩
def down : Buttons := ⟨0x080⟩
def r : Buttons := ⟨0x100⟩
def l : Buttons := ⟨0x200⟩

def known : UInt32 := 0xFFF

def directions : Buttons := ⟨right.bits ||| left.bits ||| up.bits ||| down.bits⟩

/-- Held alone, these force a recovery boot. -/
def recovery : Buttons := ⟨l.bits ||| r.bits ||| a.bits ||| up.bits⟩

def holds (buttons others : Buttons) : Bool :=
  buttons.bits &&& others.bits == others.bits

def among (buttons others : Buttons) : Buttons :=
  ⟨buttons.bits &&& others.bits⟩

end Buttons

/-- Whether the running system asked for a boot. -/
inductive BootKind where
  /-- The console was switched on or reset. -/
  | cold
  | relaunch
  deriving DecidableEq, Repr

namespace BootKind

def name : BootKind → String
  | cold => "ColdBoot"
  | relaunch => "Relaunch"

end BootKind

/-- Protection of the firmware partitions the boot stage lives in. -/
inductive WriteGuard where
  | off
  /-- Firmware writes are blocked because the boot stage is installed. -/
  | primary
  /-- Firmware writes are blocked because this is a recovery boot. -/
  | forced
  deriving DecidableEq, Repr

namespace WriteGuard

def name : WriteGuard → String
  | off => "Off"
  | primary => "ProtectPrimary"
  | forced => "ForcedPrimary"

end WriteGuard

/-- What a boot decides on. -/
structure Inputs where
  /-- Zero on a cold boot, else an ASCII digit for the firmware asked for. -/
  launchFlag : UInt8
  /-- Reads `'3'` when the GBA firmware was asked for. -/
  gbaMarker : UInt8
  buttons : Buttons
  model : Model
  displayOn : Bool
  config : Config
  deriving DecidableEq, Repr

structure Plan where
  kind : BootKind
  title : Title
  guard : WriteGuard
  model : Model
  /-- Milliseconds to hold the splash, when one is shown. -/
  splash : Option UInt32
  /-- NAND the firmware runs on. -/
  nand : Nand
  /-- NAND the firmware is read from. -/
  source : Nand
  /-- Low word of the title ID handed over by a relaunch. -/
  launched : Option UInt32
  showsGbaScreen : Bool
  deriving DecidableEq, Repr

namespace Plan

def splashMs : UInt32 := 3000

def digitZero : UInt8 := 0x30

/-- The firmware a relaunch asks for. The marker goes before the flag. -/
def requested? (flag gbaMarker : UInt8) : Option Title :=
  if gbaMarker = digitZero + 3 then some .agb
  else
    match (flag - digitZero).toNat with
    | 0 => some .native
    | 1 => some .twl
    | 2 => some .agb
    | 3 => some .safe
    | _ => none

/-- Image slot of the direction held, if it is a single one. -/
def heldSlot (buttons : Buttons) (config : Config) : Nat :=
  let held := buttons.among .directions
  if held = .up then 1
  else if held = .right then 2
  else if held = .down then 3
  else if held = .left then 4
  else config.defaultSlot

/-- NAND to run and NAND to read the firmware from, on a cold boot. Holding R mixes the two:
the built-in NAND with the firmware of the image, or the reverse where that is configured on
an installed boot stage. Otherwise both are the same, and L flips the default. -/
def coldNands (buttons : Buttons) (config : Config) : Nand × Nand :=
  let image := Nand.emu (heldSlot buttons config)
  if buttons.holds .r then
    if config.isOn .installed && config.isOn .builtInFirmware then (image, .sys) else (.sys, image)
  else if config.isOn .prefersBuiltIn == buttons.holds .l then (image, image)
  else (.sys, .sys)

def configuredGuard (config : Config) : WriteGuard :=
  if config.isOn .installed then .primary else .off

def relaunching (inputs : Inputs) (title : Title) : Plan where
  kind := .relaunch
  title
  guard := configuredGuard inputs.config
  model := inputs.model
  splash := none
  nand := inputs.config.recordedNand
  source := inputs.config.recordedSource
  launched := some title.idLow
  showsGbaScreen := inputs.config.isOn .showsGbaScreen

def starting (inputs : Inputs) : Plan :=
  let recovers := inputs.buttons = .recovery
  let nands := if recovers then (Nand.sys, Nand.sys) else coldNands inputs.buttons inputs.config
  { kind := .cold
    title := if recovers then .safe else .native
    guard := if recovers then .forced else configuredGuard inputs.config
    model := inputs.model
    splash :=
      if inputs.displayOn || inputs.config.isOn .splash then some splashMs else none
    nand := nands.1
    source := nands.2
    launched := none
    showsGbaScreen := inputs.config.isOn .showsGbaScreen }

/-- Decides how to boot. Only a relaunch flag that names no firmware is refused. -/
def ofInputs (inputs : Inputs) : Except BootFailure Plan :=
  if inputs.launchFlag = 0 then .ok (starting inputs)
  else
    match requested? inputs.launchFlag inputs.gbaMarker with
    | some title => .ok (relaunching inputs title)
    | none => .error (.unknownTitle inputs.launchFlag)

end Plan
end BootStage
