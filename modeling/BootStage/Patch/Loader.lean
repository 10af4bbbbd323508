import BootStage.Firm.Module
import BootStage.Patch.Edit
/-!
# Loader replacement

Section 0 of the system firmware is a run of modules, each as long as its header says. The one
titled `loader` is replaced by another of any length.
-/

namespace BootStage.Loader

def target : String := "loader module"

def title : Bytes := .ofAscii "loader"

/-- Position and size of the first module with the title, walking from `pos` on through a
section of `size` bytes. -/
def locate (size pos : Nat) : Edit (Nat × Nat) := do
  if size ≤ pos then throw (.missing target)
  else
    match Module.parse (← Edit.slice pos size) with
    | .error _ => throw (.malformed target "not an NCCH")
    | .ok m =>
      if m.contentBytes = 0 then throw (.malformed target "zero-sized module")
      else if m.title? = some title then return (pos, m.contentBytes)
      else locate size (pos + m.contentBytes)
termination_by size - pos

/-- The section with its loader replaced, and where the loader was. The section itself stays
as it is. -/
def replace (injector : Bytes) : Edit (Bytes × Nat × Nat) := do
  let modules ← get
  let (start, size) ← locate modules.size 0
  if modules.size < start + size then
    throw (.malformed target "module extends past the section")
  let rebuilt ← Run.ofExcept ((modules.replaceRange start size injector).mapError .splice)
  return (rebuilt, start, size)

end BootStage.Loader
