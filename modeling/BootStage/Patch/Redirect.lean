import BootStage.Patch.Process9
/-!
# NAND redirection

Accesses to the NAND are redirected to an image on the SD card. A routine is copied into a
cavity of the ARM9 binary, its placeholders are filled, the read and write paths of Process9
are made to call it, and the memory protection is opened for the place it runs from.
-/

namespace BootStage.Redirect

/-- Stands before the addresses of the card controller object. -/
def controllerPattern : Bytes := #[0x21, 0x20, 0x18, 0x20]

/-- Address of the card controller object, read from Process9 before it is patched. -/
def controllerAddress (process9 : Bytes) : Except PatchFailure UInt32 :=
  match process9.occurrence? controllerPattern with
  | none => .error (.missing "SDMMC object")
  | some found =>
    match process9.word? (found + 9), process9.word? (found + 0xD) with
    | some base, some offset => .ok (base + offset)
    | _, _ => .error (.malformed "SDMMC object" "literal pool outside Process9")

def readController (p9 : Process9) : Edit UInt32 :=
  p9.onCode do Run.ofExcept (controllerAddress (← get))

def paddingPattern : Bytes := #[0x00, 0xFF, 0xFF, 0xFF, 0xFF, 0x00]

/-- The padding never stands before this position. -/
def earliestPadding : Nat := 0x13500

def paddingToCavity : Nat := 0x455

/-- A word of the routine that is filled in when it is placed. -/
inductive Placeholder where
  | redirect
  | header
  | controller
  deriving DecidableEq, Repr

namespace Placeholder

def tag : Placeholder → Bytes
  | redirect => .ofAscii "NAND"
  | header => .ofAscii "NCSD"
  | controller => .ofAscii "SDMC"

def target : Placeholder → String
  | redirect => "EmuNAND offset placeholder"
  | header => "EmuNAND header placeholder"
  | controller => "SDMMC placeholder"

end Placeholder

def fill (placeholder : Placeholder) (value : UInt32) : Edit Unit := do
  let pos ← Edit.locate placeholder.target placeholder.tag
  Edit.writeWord placeholder.target pos value

/-- Shared by the read and write routines, behind their call sites. -/
def accessorPattern : Bytes := #[0x1E, 0x00, 0xC8, 0x05]

def accessorBack : Nat := 6

/-- The write routine follows the read routine this closely. -/
def accessorWindow : Nat := 0x100

/-- `ldr r4, [pc, #0]` -/
def loadTarget : UInt16 := 0x4C00

/-- `blx r4` -/
def callTarget : UInt16 := 0x47A0

def accessors : String := "NAND accessors"

def detour (site : Nat) (routine : UInt32) : Edit Unit := do
  Edit.writeHalf accessors site loadTarget
  Edit.writeHalf accessors (site + 2) callTarget
  Edit.writeWord accessors (site + 4) routine

def accessorSites? (process9 : Bytes) : Option (Nat × Nat) := do
  let read ← process9.anchor? accessorPattern accessorBack
  let start := read + accessorBack + accessorPattern.size
  let window ← process9.range? start (min (start + accessorWindow) process9.size)
  let found ← window.occurrence? accessorPattern
  return (read, start + found - accessorBack)

/-- Makes both NAND routines of Process9 call `routine`. -/
def detourAccessors (routine : UInt32) : Edit Unit := do
  let (read, write) ← Run.orFail (accessorSites? (← get)) (.missing accessors)
  detour read routine
  detour write routine

/-- Start of the region table in the memory protection setup. -/
def regionPattern : Bytes := #[0x03, 0x00, 0x24, 0x00]

def regionTable : String := "MPU region table"

def openRegions : Edit Unit := do
  let table ← Edit.locate regionTable regionPattern
  Edit.writeWord regionTable table 0x00360003
  Edit.writeWord regionTable (table + 4 * 6) 0x00200603
  Edit.writeWord regionTable (table + 4 * 9) 0x001C0603

/-- Installs the redirection to `location` in an ARM9 section loaded at `address`, whose
Process9 code is the range from `start` to `stop`. The controller's address has to be the one
from before any patch. -/
def install (address : UInt32) (start stop : Nat) (routine : Bytes) (location : ImageLocation)
    (controller : UInt32) : Edit Unit := do
  let found ← Run.orFail ((← get).occurrenceFrom? paddingPattern earliestPadding)
    (.missing "EmuNAND cavity")
  let cavity := found + paddingToCavity
  Edit.write "EmuNAND routine" cavity routine
  Edit.within cavity (cavity + routine.size) do
    fill .redirect location.redirect
    fill .header location.header
    fill .controller controller
  let placed := address + UInt32.ofNat cavity
  Edit.within start stop (detourAccessors placed)
  openRegions
  Run.emit (.nandRedirected placed location.redirect location.header)

/-- Installs the redirection around `checks`: the controller's address is read before them,
everything else is done after them. -/
def installAround (address : UInt32) (p9 : Process9) (routine : Bytes) (location : ImageLocation)
    (checks : Edit Unit) : Edit Unit := do
  let controller ← readController p9
  checks
  install address p9.start p9.stop routine location controller

end BootStage.Redirect
