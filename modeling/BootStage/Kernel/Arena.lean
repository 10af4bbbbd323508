import BootStage.Kernel.Layout
/-!
# Free space of the exception page

The vectors are followed by filler up to the end of the page. Code for the kernel is placed
there front to back, each piece but the first at a multiple of four.
-/

namespace BootStage

/-- Unused end of the exception page. -/
structure Arena where
  /-- Where the next piece goes. -/
  next : Nat
  /-- Position after the last byte that may be used. -/
  stop : Nat
  deriving DecidableEq, Repr

namespace Arena

/-- Filler after the vectors. The space starts one byte past its start. -/
def filler : Bytes := Array.replicate 5 0xFF

def locate (code : Bytes) (kernel : Kernel) : Except PatchFailure Arena :=
  let stop := min (kernel.page + Kernel.pageBytes) code.size
  match (code.range? kernel.page stop).bind (·.occurrence? filler) with
  | some found => .ok ⟨kernel.page + found + 1, stop⟩
  | none => .error (.missing "ARM11 free space")

/-- The least multiple of four that is not below `n`. -/
def aligned (n : Nat) : Nat :=
  (n + 3) / 4 * 4

def address (pos : Nat) : UInt32 :=
  Kernel.base + UInt32.ofNat pos

end Arena

/-- The kernel section together with its free space. -/
structure KernelImage where
  code : Bytes
  arena : Arena
  deriving DecidableEq, Repr

abbrev KernelEdit (α : Type) := Run Notice PatchFailure KernelImage α

namespace KernelEdit

variable {α : Type}

/-- Edits the section without touching the free space. -/
def onCode (edit : Edit α) : KernelEdit α :=
  Run.onPart KernelImage.code (fun image code => { image with code }) edit

def within (arena : Arena) (edit : KernelEdit α) : Edit α :=
  Run.onPart (⟨·, arena⟩) (fun _ image => image.code) edit

/-- Copies `code` to the next free bytes, on behalf of `target`, and gives their position. -/
def place (target : String) (code : Bytes) : KernelEdit Nat := do
  let arena := (← get).arena
  if arena.next + code.size ≤ arena.stop then
    onCode (Edit.write target arena.next code)
    modify fun image =>
      { image with arena := { arena with next := Arena.aligned (arena.next + code.size) } }
    return arena.next
  else throw (.malformed target "no room in the exception page")

end KernelEdit
end BootStage
