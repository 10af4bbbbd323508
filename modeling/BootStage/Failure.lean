import BootStage.Bytes.Write
import BootStage.Firm.Container
import BootStage.Firm.Module
import BootStage.Text.Hex
/-!
# Failures

Everything that can go wrong before the hand-over, with its wording. `causes` lists the
wordings of the failures that a failure wraps, outermost first.
-/

namespace BootStage

namespace WriteFailure

def message (e : WriteFailure) : String :=
  s!"write of {e.len} bytes at {Hex.plain e.base} (offset {e.offset}) exceeds " ++
    s!"the {Hex.plain e.size}-byte target"

end WriteFailure

namespace Bytes.SpliceFailure

def message (e : SpliceFailure) : String :=
  s!"cannot replace {Hex.plain e.removed} bytes at {Hex.plain e.pos} in " ++
    s!"a {Hex.plain e.size}-byte buffer"

end Bytes.SpliceFailure

namespace FirmFailure

def message : FirmFailure → String
  | tooShort required available =>
    s!"buffer too small: need {required} bytes, have {available}"
  | wrongMagic found => s!"invalid magic: expected \"FIRM\", found {Hex.byteList found}"
  | sectionOverrun index offset size available =>
    s!"section {index} ({Hex.plain size.toNat} bytes at {Hex.plain offset.toNat}) exceeds " ++
      s!"the {Hex.plain available}-byte container"

end FirmFailure

namespace ModuleFailure

def message : ModuleFailure → String
  | tooShort required available =>
    s!"buffer too small: need {required} bytes, have {available}"
  | wrongMagic found => s!"invalid magic: expected \"NCCH\", found {Hex.byteList found}"

end ModuleFailure

inductive PatchFailure where
  /-- A pattern or marker that has to be there is not. -/
  | missing (target : String)
  /-- A write would leave its section. -/
  | outside (target : String) (write : WriteFailure)
  /-- A structure the patch found does not hold together. -/
  | malformed (target reason : String)
  | splice (err : Bytes.SpliceFailure)
  deriving DecidableEq, Repr

namespace PatchFailure

def message : PatchFailure → String
  | missing target => s!"patch target `{target}` not found"
  | outside target _ => s!"patch `{target}` writes out of bounds"
  | malformed target reason => s!"patch `{target}`: {reason}"
  | splice err => err.message

def causes : PatchFailure → List String
  | outside _ write => [write.message]
  | missing _ | malformed _ _ | splice _ => []

end PatchFailure

inductive StorageFailure where
  | unmounted
  | absent
  | oversized (size capacity : Nat)
  | io
  deriving DecidableEq, Repr

namespace StorageFailure

def message : StorageFailure → String
  | unmounted => "filesystem not mounted"
  | absent => "file not found"
  | oversized size capacity =>
    s!"file of {Hex.plain size} bytes exceeds the {Hex.plain capacity}-byte buffer"
  | io => "I/O error"

end StorageFailure

inductive CryptoFailure where
  | exefs
  | hashMismatch (index : Nat)
  | arm9
  deriving DecidableEq, Repr

namespace CryptoFailure

def message : CryptoFailure → String
  | exefs => "ExeFS decryption failed"
  | hashMismatch index => s!"section {index} hash mismatch"
  | arm9 => "ARM9 binary decryption failed"

end CryptoFailure

/-- A boot that fails before the hand-over. -/
inductive BootFailure where
  | format (err : FirmFailure)
  | patch (err : PatchFailure)
  | storage (err : StorageFailure)
  | crypto (err : CryptoFailure)
  | unknownTitle (flag : UInt8)
  /-- The firmware was built for the other model. -/
  | incompatible (title : Title)
  deriving DecidableEq, Repr

namespace BootFailure

def message : BootFailure → String
  | format err => s!"invalid firmware: {err.message}"
  | patch err => s!"patching failed: {err.message}"
  | storage err => s!"storage: {err.message}"
  | crypto err => s!"crypto: {err.message}"
  | unknownTitle flag => s!"unknown firmware type byte {Hex.byte flag}"
  | incompatible title => s!"{title.name} firmware is not valid for this console"

def causes : BootFailure → List String
  | format err => [err.message]
  | patch err => err.message :: err.causes
  | storage err => [err.message]
  | crypto err => [err.message]
  | unknownTitle _ | incompatible _ => []

end BootFailure
end BootStage
