import BootStage.Bytes.Basic
/-!
# Builds

A build of the boot stage is made with the texts of its version and, from a checkout, with the
commit it is at. What it reports of these are the numbers they start with.
-/

namespace BootStage

/-- The texts a build is made with. Those of a plain build are the defaults. -/
structure Build where
  major : String := "0"
  minor : String := "1"
  patch : String := "0"
  /-- What stands behind the version of a build that is not a release. -/
  preRelease : String := ""
  /-- In hexadecimal, where the commit is known. -/
  commit : Option String := none
  deriving DecidableEq, Repr

namespace Build

def digit? (radix : Nat) (c : Char) : Option Nat :=
  let value :=
    if '0' ≤ c ∧ c ≤ '9' then some (c.toNat - '0'.toNat)
    else if 'a' ≤ c ∧ c ≤ 'z' then some (10 + (c.toNat - 'a'.toNat))
    else if 'A' ≤ c ∧ c ≤ 'Z' then some (10 + (c.toNat - 'A'.toNat))
    else none
  value.filter (· < radix)

/-- Appends the digits that a text starts with to `value`, at most `limit` of them. -/
def appendDigits (radix : Nat) : (limit value : Nat) → List Char → Nat
  | limit + 1, value, c :: rest =>
    match digit? radix c with
    | some digit => appendDigits radix limit (value * radix + digit) rest
    | none => value
  | _, value, _ => value

def leadingNumber (radix limit : Nat) (text : String) : Nat :=
  appendDigits radix limit 0 text.toList

def version (build : Build) : UInt8 × UInt8 × UInt8 :=
  let part (text : String) : UInt8 := UInt8.ofNat (leadingNumber 10 3 text)
  (part build.major, part build.minor, part build.patch)

/-- The commit by its first eight digits, 0 when unknown. -/
def commitWord (build : Build) : UInt32 :=
  match build.commit with
  | some hash => UInt32.ofNat (leadingNumber 16 8 hash)
  | none => 0

example : leadingNumber 16 8 "1a2b3c4d5e" = 0x1A2B3C4D ∧ leadingNumber 10 3 "7-rc1" = 7 := by
  decide

end Build
end BootStage
