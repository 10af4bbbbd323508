import BootStage.Device.Collaborators
/-!
# NAND images on the SD card

An image lies in the space before the first partition. One of two formats puts the NAND header
in the sector after the start of the image, the other in the last sector. Several spacings of
the image slots have been in use, so each is tried.
-/

namespace BootStage.CardImage

def partitionStartPos : Nat := 0x1C6

def magicPos : Nat := 0x100

def magic : Bytes := .ofAscii "NCSD"

def minSectors (model : Model) : UInt32 :=
  model.choose 0x1D8000 0x26E000

/-- A sector count rounded up to the next 4 MiB. -/
def roundedUp (sectors : UInt32) : UInt32 :=
  (sectors + 0x1FFF) &&& ~~~0x1FFF

/-- A place where an image may start. -/
structure Candidate where
  offset : UInt32
  /-- The header may be in the last sector of the image. -/
  trailingHeader : Bool
  deriving DecidableEq, Repr

/-- Spacing of the slots in the oldest layout. -/
def fixedSpacing (builtInSectors : UInt32) : UInt32 :=
  if 0x200000 < builtInSectors then 0x400000 else 0x200000

/-- Where the image of `slot` may start, in the order tried. The first slot has one place; the
others depend on the spacing, and images at the smallest spacing have no trailing header. -/
def candidates (slot : Nat) (model : Model) (builtInSectors : UInt32) : List Candidate :=
  if slot = 1 then [⟨0, true⟩]
  else
    let ahead := UInt32.ofNat (slot - 1)
    [⟨fixedSpacing builtInSectors * ahead, true⟩,
      ⟨roundedUp (builtInSectors + 1) * ahead, true⟩,
      ⟨minSectors model * ahead, false⟩]

variable {δ ε : Type} [Card δ]

def isHeader (sector : UInt32) : Run Event ε δ Bool := do
  match ← Card.read sector with
  | some content => return Bytes.window content.toArray magicPos 4 = magic
  | none => return false

def probe (slot : Nat) (model : Model) (builtInSectors partitionStart : UInt32)
    (candidate : Candidate) : Run Event ε δ (Option ImageLocation) := do
  let offset := candidate.offset
  if partitionStart < offset + minSectors model then return none
  if ← isHeader (offset + 1) then return some ⟨slot, offset + 1, offset + 1⟩
  if candidate.trailingHeader then
    if ← isHeader (offset + builtInSectors) then
      return some ⟨slot, offset, offset + builtInSectors⟩
  return none

/-- Looks for the image of `slot` at all its places, in front of the first partition. -/
def searchSlot (slot : Nat) (model : Model) (partitionStart : UInt32) :
    Run Event ε δ (Option ImageLocation) := do
  let builtInSectors := Card.builtInSectors (← get)
  let places := candidates slot model builtInSectors
  places.findSomeM? (probe slot model builtInSectors partitionStart)

/-- Finds the image of `slot`, or goes on with `missing` when the card has none. -/
def locateOr (missing : Run Event ε δ (Option ImageLocation)) (slot : Nat) (model : Model) :
    Run Event ε δ (Option ImageLocation) := do
  match ← Card.read 0 with
  | none =>
    Run.emit (.notice .partitionTableUnreadable)
    return none
  | some table =>
    match ← searchSlot slot model (Bytes.word table.toArray partitionStartPos) with
    | some found =>
      Run.emit (.notice (.imageFound slot found.redirect))
      return some found
    | none => missing

def giveUp : Run Event ε δ (Option ImageLocation) := do
  Run.emit (.notice .imageMissing)
  return none

/-- Finds the image of `slot`, or else that of slot 1. -/
def locate (slot : Nat) (model : Model) : Run Event ε δ (Option ImageLocation) :=
  let retry := do
    Run.emit (.notice (.imageRetried slot))
    locateOr giveUp 1 model
  locateOr (if slot = 1 then giveUp else retry) slot model

def nandOf : Option ImageLocation → Nand
  | some found => .emu found.slot
  | none => .sys

/-- Brings a plan in line with the images that exist, and gives the one the firmware runs on.
When it is missing, the console boots the built-in NAND with its own firmware; a missing image
to read the firmware from falls back to the built-in firmware alone. -/
def resolve (plan : Plan) : Run Event ε δ (Plan × Option ImageLocation) :=
  match plan.nand, plan.source with
  | .emu slot, source => do
    let location ← locate slot plan.model
    let found := nandOf location
    let source := if location.isNone ∨ source = .emu slot then found else source
    return ({ plan with nand := found, source }, location)
  | .sys, .emu slot => do
    let source := nandOf (← locate slot plan.model)
    return ({ plan with source }, none)
  | .sys, .sys => return (plan, none)

end BootStage.CardImage
