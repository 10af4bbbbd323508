import BootStage.Config.File
import BootStage.Device.Collaborators
/-!
# The stored configuration

A file that is missing or unreadable yields the defaults, so that it can never keep a console
from booting. A cold boot records its choices, which a later relaunch repeats.
-/

namespace BootStage.Config

inductive Origin where
  | stored
  /-- The defaults, for want of a usable file. -/
  | defaulted
  deriving DecidableEq, Repr

variable {σ ε : Type} [Storage σ]

/-- Takes what was read into a buffer for the configuration, if it is one. -/
def adopt (read : Except StorageFailure Nat) (buffer : Bytes) : Run Event ε σ (Config × Origin) :=
  match read with
  | .error err => do
    Run.emit (.notice (.configUnavailable err))
    return (.empty, .defaulted)
  | .ok size =>
    match buffer.range? 0 size with
    | none => Run.outOfRange
    | some file =>
      match decode file with
      | .ok config => return (config, .stored)
      | .error err => do
        Run.emit (.notice (.configIgnored err))
        return (.empty, .defaulted)

/-- Reads the configuration. The buffer is a byte longer than a file, so that longer files are
noticed. -/
def load : Run Event ε σ (Config × Origin) := do
  let (read, buffer) ← Storage.read path (Array.replicate (fileSize + 1) 0)
  adopt read buffer

def save (config : Config) : Run Event StorageFailure σ Unit :=
  Storage.write path config.encode

/-- Records the choices of a cold boot, and gives the configuration with them. The file is
written only where that changes it. -/
def record (config : Config) (origin : Origin) (plan : Plan) : Run Event StorageFailure σ Config :=
  match plan.kind with
  | .relaunch => pure config
  | .cold =>
    match config.recording? plan.nand plan.source plan.title with
    | none => Run.outOfRange
    | some updated => do
      if origin = .defaulted ∨ updated ≠ config then save updated
      return updated

end BootStage.Config
