import BootStage.Event
import BootStage.Run
/-!
# Collaborators

The file systems, the cipher engine and the SD card are driven through these interfaces. A
collaborator is a state with operations on it; nothing is assumed of it, except that filling a
buffer never changes the buffer's size. The runs below list each call before they make it.
-/

namespace BootStage

/-- What a call comes to that works on a caller's buffer. -/
structure Transfer (ε α σ : Type) where
  result : Except ε α
  buffer : Bytes
  state : σ

structure InstalledTitle where
  /-- Bytes written to the buffer. -/
  size : Nat
  version : UInt32
  deriving DecidableEq, Repr

/-- Whole-file access to the SD card and the NANDs. -/
class Storage (σ : Type) where
  /-- Reads a file into the start of a buffer and gives its size. -/
  getFile : String → Bytes → σ → Transfer StorageFailure Nat σ
  putFile : String → Bytes → σ → Except StorageFailure Unit × σ
  /-- Reads the installed, encrypted title of a NAND into a buffer. -/
  readTitle : Nand → Title → Bytes → σ → Transfer StorageFailure InstalledTitle σ
  size_getFile : ∀ path buffer s, (getFile path buffer s).buffer.size = buffer.size
  size_readTitle : ∀ nand title buffer s,
    (readTitle nand title buffer s).buffer.size = buffer.size

class Crypto (κ : Type) where
  /-- Decrypts an installed title in place, leaving the container at the start. -/
  decryptTitle : Bytes → κ → Transfer CryptoFailure Unit κ
  checkSection : Section → Bytes → κ → Except CryptoFailure Unit × κ
  /-- Decrypts the ARM9 binary of a New-model firmware in place. -/
  decryptArm9 : Bytes → Model → κ → Transfer CryptoFailure Unit κ
  size_decryptTitle : ∀ buffer s, (decryptTitle buffer s).buffer.size = buffer.size
  size_decryptArm9 : ∀ buffer model s, (decryptArm9 buffer model s).buffer.size = buffer.size

abbrev Sector := Vector UInt8 0x200

/-- Raw sectors of the SD card. -/
class Card (δ : Type) where
  /-- Size of the built-in NAND, in sectors. -/
  builtInSectors : δ → UInt32
  getSector : UInt32 → δ → Option Sector × δ

namespace Storage

variable {σ ε : Type} [Storage σ]

/-- Reads a file on top of `buffer`; a failure leaves what was written. -/
def read (path : String) (buffer : Bytes) :
    Run Event ε σ (Except StorageFailure Nat × Bytes) := do
  Run.emit (.call (.getFile path buffer.size))
  let out := Storage.getFile path buffer (← get)
  set out.state
  return (out.result, out.buffer)

def write (path : String) (data : Bytes) : Run Event StorageFailure σ Unit := do
  Run.emit (.call (.putFile path data))
  Run.ofStep (Storage.putFile path data)

end Storage

namespace Card

variable {δ ε : Type} [Card δ]

def read (sector : UInt32) : Run Event ε δ (Option Sector) := do
  Run.emit (.call (.getSector sector))
  modifyGet (Card.getSector sector)

end Card
end BootStage
