import BootStage.Bytes.Search
import BootStage.Notice
import BootStage.Run
/-!
# Edits

An edit is a run on a byte image that fails with the name of the patch it belongs to. Edits
reach the image through `Edit.writeDisplaced` only, and a part of it through `Edit.within`.
-/

namespace BootStage

/-- A run that changes a byte image in place. -/
abbrev Edit (α : Type) := Run Notice PatchFailure Bytes α

namespace Edit

variable {α : Type}

def writeDisplaced (target : String) (base : Nat) (offset : Int) (data : Bytes) : Edit Unit :=
  Run.ofStep fun image =>
    match Bytes.writeStart image.size base offset data.size with
    | .ok start => (.ok (), image.overwrite start data)
    | .error err => (.error (.outside target err), image)

def write (target : String) (pos : Nat) (data : Bytes) : Edit Unit :=
  writeDisplaced target pos 0 data

theorem writeDisplaced_apply (target : String) (base : Nat) (offset : Int) (data image : Bytes) :
    writeDisplaced target base offset data image =
      match Bytes.writeStart image.size base offset data.size with
      | .ok start => ⟨.ok (), image.overwrite start data, []⟩
      | .error err => ⟨.error (.failed (.outside target err)), image, []⟩ := by
  unfold writeDisplaced Run.ofStep
  dsimp only
  cases Bytes.writeStart image.size base offset data.size <;> rfl

theorem write_apply (target : String) (pos : Nat) (data image : Bytes) :
    write target pos data image =
      match Bytes.writeStart image.size pos 0 data.size with
      | .ok start => ⟨.ok (), image.overwrite start data, []⟩
      | .error err => ⟨.error (.failed (.outside target err)), image, []⟩ :=
  writeDisplaced_apply target pos 0 data image

def writeHalf (target : String) (pos : Nat) (value : UInt16) : Edit Unit :=
  write target pos (.ofHalf value)

def writeWord (target : String) (pos : Nat) (value : UInt32) : Edit Unit :=
  write target pos (.ofWord value)

/-- Lowest occurrence of `pattern`, which `target` cannot do without. -/
def locate (target : String) (pattern : Bytes) : Edit Nat := do
  Run.orFail ((← get).occurrence? pattern) (.missing target)

/-- The lowest occurrence at or after `start`, where the bytes from there on have to be a range of
the image. -/
def searchFrom (table : SkipTable) (start : Nat) : Edit (Option Nat) := do
  let image ← get
  if start ≤ image.size then return table.search image start else Run.outOfRange

def slice (start stop : Nat) : Edit Bytes := do
  match (← get).range? start stop with
  | some part => return part
  | none => Run.outOfRange

/-- Edits the bytes `start ≤ i < stop` as an image of their own. They have to be a range of
the image. -/
def within (start stop : Nat) (edit : Edit α) : Edit α := do
  let image ← get
  if start ≤ stop ∧ stop ≤ image.size then
    Run.onPart (·.extract start stop) (·.overwrite start) edit
  else Run.outOfRange

end Edit

abbrev FirmEdit (α : Type) := Run Notice PatchFailure Firm α

namespace FirmEdit

variable {α : Type}

/-- Edits the whole container as bytes. The captured header stays as it is. -/
def onBytes (edit : Edit α) : FirmEdit α :=
  Run.onPart Firm.bytes (fun firm bytes => { firm with bytes }) edit

/-- Edits the payload of the section in `slot`, named `target` where it is missing. -/
def onSection (slot : Nat) (target : String) (edit : Section → Edit α) : FirmEdit α := do
  let entry ← Run.orFail ((← get).section? slot) (.missing target)
  onBytes (Edit.within entry.start entry.stop (edit entry))

end FirmEdit
end BootStage
