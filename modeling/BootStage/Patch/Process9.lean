import BootStage.Firm.Module
import BootStage.Patch.Edit
/-!
# Process9

Process9 is packed as a module somewhere in the ARM9 binary. The tail of its title leads back
to the module header, and the header says where the code is.
-/

namespace BootStage

/-- Place of the Process9 code in the ARM9 section. -/
structure Process9 where
  header : Nat
  start : Nat
  size : Nat
  address : UInt32
  deriving DecidableEq, Repr

namespace Process9

def stop (p : Process9) : Nat :=
  p.start + p.size

/-- Tail of the title. -/
def marker : Bytes := .ofAscii "ess9"

/-- The title never stands before this position. -/
def earliest : Nat := 0x15000

def markerToHeader : Nat := 0x204

def fileTableSize : Nat := 0x200

def target : String := "Process9"

/-- The code that a module at `header` packs, in a section of `size` bytes. -/
def ofModule (size header : Nat) (m : Module) : Except PatchFailure Process9 :=
  match m.extended with
  | none => .error (.malformed target "truncated extended header")
  | some extended =>
    let p : Process9 :=
      { header
        start := header + Module.mediaBytes m.header.exefs.offset + fileTableSize
        size := Module.mediaBytes m.header.exefs.size
        address := extended.text.address }
    if p.stop ≤ size then .ok p
    else .error (.malformed target "code extends past the ARM9 section")

/-- Finds the code of the section edited. It has to lie inside the section. -/
def locate : Edit Process9 := do
  let arm9 ← get
  let found ← Run.orFail (arm9.occurrenceFrom? marker earliest) (.missing target)
  if found < markerToHeader then
    throw (.malformed target "marker too close to the section start")
  let header := found - markerToHeader
  match Module.parse (← Edit.slice header arm9.size) with
  | .error _ => throw (.malformed target "no NCCH header in front of the marker")
  | .ok m => Run.ofExcept (ofModule arm9.size header m)

def onCode {α : Type} (p : Process9) (edit : Edit α) : Edit α :=
  Edit.within p.start p.stop edit

end Process9
end BootStage
