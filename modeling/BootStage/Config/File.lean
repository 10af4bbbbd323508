import BootStage.Bytes.Word
import BootStage.Config.Word
import BootStage.Text.Hex
/-!
# The configuration file

Twelve bytes hold a magic, a version and the configuration word. Files of any minor version
are read; the current one is written.
-/

namespace BootStage

inductive ConfigFailure where
  | wrongSize (size : Nat)
  | wrongMagic (found : Bytes)
  | wrongVersion (major minor : UInt16)
  deriving DecidableEq, Repr

namespace ConfigFailure

def message : ConfigFailure → String
  | wrongSize size => s!"configuration file has {size} bytes, expected 12"
  | wrongMagic found => s!"invalid magic: expected \"CONF\", found {Hex.byteList found}"
  | wrongVersion major minor =>
    s!"unsupported configuration version {major.toNat}.{minor.toNat}"

end ConfigFailure

namespace Config

def path : String := "/ctrboot/config.bin"

def magic : Bytes := .ofAscii "CONF"

def fileSize : Nat := 12

def majorVersion : UInt16 := 1

def minorVersion : UInt16 := 2

def encode (config : Config) : Bytes :=
  magic ++ Bytes.ofHalf majorVersion ++ Bytes.ofHalf minorVersion ++ Bytes.ofWord config.word

/-- The configuration a file holds. Size, magic and major version are checked in this order. -/
def decode (file : Bytes) : Except ConfigFailure Config :=
  if file.size ≠ fileSize then .error (.wrongSize file.size)
  else if file.window 0 4 ≠ magic then .error (.wrongMagic (file.window 0 4))
  else if file.half 4 ≠ majorVersion then
    .error (.wrongVersion (file.half 4) (file.half 6))
  else .ok ⟨file.word 8⟩

end Config
end BootStage
