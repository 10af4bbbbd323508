import BootStage.Bytes.Basic
/-!
# Hexadecimal text

The number formats of messages: digits are lower case, and a value is never cut to fit.
-/

namespace BootStage.Hex

def digits (width n : Nat) : String :=
  let shown := Nat.toDigits 16 n
  String.ofList (List.replicate (width - shown.length) '0' ++ shown)

def plain (n : Nat) : String :=
  "0x" ++ digits 1 n

def byte (value : UInt8) : String :=
  "0x" ++ digits 2 value.toNat

def address (value : UInt32) : String :=
  "0x" ++ digits 8 value.toNat

def byteList (bytes : Bytes) : String :=
  "[" ++ String.intercalate ", " (bytes.toList.map fun b => digits 2 b.toNat) ++ "]"

/-- Two digits a byte, with nothing between them. -/
def run (bytes : Bytes) : String :=
  bytes.foldl (fun text b => text ++ digits 2 b.toNat) ""

end BootStage.Hex
