import BootStage.Config.Word
import BootStage.Kernel.Arena
import BootStage.Kernel.Build
/-!
# Service calls

Two service calls are added to the kernel: one that runs a function in supervisor mode, and
one through which programs identify the boot stage. The kernel's own access checks can be
lifted as well.
-/

namespace BootStage.ServiceCall

/-- Makes service call `number` enter the code at `pos`, on behalf of `target`. -/
def point (target : String) (kernel : Kernel) (number pos : Nat) : Edit Unit :=
  Edit.writeWord target (kernel.slot number) (Arena.address pos)

namespace Backdoor

def target : String := "svcBackdoor"

def number : Nat := 0x7B

/-- Calls the function in r0 in supervisor mode, on a stack of its own. -/
def code : Bytes := #[
  0xFF, 0x10, 0xCD, 0xE3, -- bic   r1, sp, #0xFF
  0x0F, 0x1C, 0x81, 0xE3, -- orr   r1, r1, #0xF00
  0x28, 0x10, 0x81, 0xE2, -- add   r1, r1, #0x28
  0x00, 0x20, 0x91, 0xE5, -- ldr   r2, [r1]
  0x00, 0x60, 0x22, 0xE9, -- stmdb r2!, {sp, lr}
  0x02, 0xD0, 0xA0, 0xE1, -- mov   sp, r2
  0x30, 0xFF, 0x2F, 0xE1, -- blx   r0
  0x03, 0x00, 0xBD, 0xE8, -- pop   {r0, r1}
  0x00, 0xD0, 0xA0, 0xE1, -- mov   sp, r0
  0x11, 0xFF, 0x2F, 0xE1] -- bx    r1

/-- Installs the call, unless the kernel has one in its place. Tells whether it did. -/
def install (kernel : Kernel) : KernelEdit Bool := do
  let current ← Run.orFail ((← get).code.word? (kernel.slot number))
    (.malformed target "SVC table slot outside section")
  if current = 0 then
    let pos ← KernelEdit.place target code
    KernelEdit.onCode (point target kernel number pos)
    Run.emit (.backdoorInstalled (Arena.address pos))
    return true
  else
    Run.emit (.backdoorPresent current)
    return false

end Backdoor

namespace Info

def target : String := "svcGetCFWInfo"

def number : Nat := 0x2E

/-- Stands in the stub where the block goes. -/
def magic : Bytes := .ofAscii "CTRB"

/-- Bit 0 marks a build from a known commit, bit 1 a release. -/
def flags (build : Build := {}) : UInt8 :=
  (if build.commit.isSome then 1 else 0) ||| (if build.preRelease.isEmpty then 2 else 0)

def blockSize : Nat := 16

/-- The block programs read: who boots the console, and the configuration of this boot. -/
def block (config : Config) (build : Build := {}) : Bytes :=
  magic ++ #[build.version.1, build.version.2.1, build.version.2.2, flags build] ++
    Bytes.ofWord build.commitWord ++ Bytes.ofWord config.word

@[simp] theorem size_block (config : Config) (build : Build) :
    (block config build).size = blockSize := by
  simp only [block, Array.size_append, Bytes.size_ofWord]
  rfl

theorem block_reads (config : Config) (build : Build) :
    (block config build).window 0 4 = magic ∧
      (block config build).window 4 4 =
        #[build.version.1, build.version.2.1, build.version.2.2, flags build] ∧
      (block config build).word 8 = build.commitWord ∧
      (block config build).word 12 = config.word := by
  have hmagic : magic.size = 4 := rfl
  unfold block
  generalize hnamed : #[build.version.1, build.version.2.1, build.version.2.2, flags build] = named
  have hfour : named.size = 4 := by rw [← hnamed]; rfl
  have hcommit : (magic ++ named).size = 8 := by rw [Array.size_append, hmagic, hfour]
  have hconfig : (magic ++ named ++ Bytes.ofWord build.commitWord).size = 12 := by
    rw [Array.size_append, hcommit, Bytes.size_ofWord]
  refine ⟨?_, ?_, ?_, ?_⟩
  · rw [Array.append_assoc, Array.append_assoc, Bytes.window, ← hmagic]
    exact Array.extract_append_left
  · rw [Array.append_assoc]
    exact Bytes.extract_between hmagic (by rw [hfour]) _
  · rw [Bytes.word_append (by omega), ← hcommit]
    exact (Bytes.word_append_right _ _ 0).trans (Bytes.word_ofWord _)
  · rw [← hconfig]
    exact (Bytes.word_append_right _ _ 0).trans (Bytes.word_ofWord _)

/-- The routine of the call as it is before its block is filled, and the build to name there. -/
structure Stub where
  code : Bytes
  build : Build := {}
  deriving DecidableEq, Repr

instance : Coe Bytes Stub where
  coe code := { code }

/-- Position of the block in the stub, which has to have all of it. -/
def blockOffset (stub : Bytes) : KernelEdit Nat := do
  let offset ← Run.orFail (stub.occurrence? magic) (.malformed target "no info block")
  match stub.range? offset stub.size with
  | none => Run.outOfRange
  | some tail =>
    if tail.size < blockSize then throw (.malformed target "info block truncated")
    else return offset

/-- Installs the call: the stub is placed, its block filled, the table entry set. -/
def install (kernel : Kernel) (stub : Stub) (config : Config) : KernelEdit Unit := do
  let offset ← blockOffset stub.code
  let pos ← KernelEdit.place target stub.code
  KernelEdit.onCode do
    Edit.write target (pos + offset) (block config stub.build)
    point target kernel number pos
  Run.emit (.infoInstalled (Arena.address pos) stub.build.version)

end Info

namespace CallAccess

def target : String := "SVC access check"

/-- `tst r10, r11, lsl lr` -/
def check : UInt32 := 0xE11A0E1B

/-- `movs r10, #1` -/
def granted : UInt32 := 0xE3B0A001

/-- Lets every process make every service call. -/
def lift (kernel : Kernel) : Edit Unit := do
  let pos ← Run.orFail (Kernel.scan (· == check) (← get) kernel.handler) (.missing target)
  Edit.writeWord target pos granted
  Run.emit (.callsGranted pos)

end CallAccess

namespace ModuleUnpacking

def target : String := "builtin module access checks"

def pattern : Bytes := #[
  0x00, 0x00, 0x94, 0xE5, 0x18, 0x10, 0x90, 0xE5,
  0x28, 0x20, 0x90, 0xE5, 0x48, 0x00, 0x9D, 0xE5]

/-- Detours the unpacking of builtin modules through `hook`, which lifts their access checks.
Kernels without that routine are left alone. Tells whether the hook was installed. -/
def install (hook : Bytes) : KernelEdit Bool := do
  match (← get).code.occurrence? pattern with
  | none =>
    Run.emit .unpackingMissing
    return false
  | some site =>
    let pos ← KernelEdit.place target hook
    KernelEdit.onCode (Edit.writeWord target site (Arm.call site pos))
    Run.emit (.unpackingHooked site pos)
    return true

end ModuleUnpacking
end BootStage.ServiceCall
