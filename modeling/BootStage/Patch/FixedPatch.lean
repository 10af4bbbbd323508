import BootStage.Bytes.Write
import BootStage.Console
/-!
# Patches at fixed offsets

Where the code of a firmware never moves, a patch is a place for each console model and what
to write there.
-/

namespace BootStage

inductive Payload where
  | block (bytes : Bytes)
  | half (value : UInt16)
  /-- A half-word followed by two zero bytes. -/
  | halfZeroTail (value : UInt16)
  deriving DecidableEq, Repr

namespace Payload

/-- Number of the kind in stored tables. -/
def kind : Payload → Nat
  | block _ => 0
  | half _ => 1
  | halfZeroTail _ => 2

def size : Payload → Nat
  | block bytes => bytes.size
  | half _ => 2
  | halfZeroTail _ => 4

def bytes : Payload → Bytes
  | block bytes => bytes
  | half value => .ofHalf value
  | halfZeroTail value => Bytes.ofHalf value ++ #[0, 0]

theorem size_bytes (payload : Payload) : payload.bytes.size = payload.size := by
  cases payload <;> rfl

def isEmpty (payload : Payload) : Bool :=
  payload.size = 0

end Payload

/-- A payload and where it goes. -/
structure FixedPatch where
  oldOffset : UInt32
  newOffset : UInt32
  payload : Payload
  deriving DecidableEq, Repr

namespace FixedPatch

def positionOn (patch : FixedPatch) (model : Model) : Nat :=
  (model.choose patch.oldOffset patch.newOffset).toNat

def lay (image : Bytes) (pos : Nat) (data : Bytes) : Except WriteFailure Unit × Bytes :=
  match Bytes.writeStart image.size pos 0 data.size with
  | .ok start => (.ok (), image.overwrite start data)
  | .error err => (.error err, image)

/-- Applies a single patch. A zero tail is checked together with its half-word, before either is
written. -/
def apply (patch : FixedPatch) (model : Model) (image : Bytes) :
    Except WriteFailure Unit × Bytes :=
  let pos := patch.positionOn model
  match patch.payload with
  | .block bytes => lay image pos bytes
  | .half value => lay image pos (.ofHalf value)
  | .halfZeroTail value =>
    match Bytes.writeStart image.size pos 0 4 with
    | .error err => (.error err, image)
    | .ok _ =>
      match lay image pos (.ofHalf value) with
      | (.error err, image) => (.error err, image)
      | (.ok (), image) => lay image (pos + 2) #[0, 0]

/-- Applies a table in order, up to the first patch that does not fit. -/
def applyAll (model : Model) : List FixedPatch → Bytes → Except WriteFailure Unit × Bytes
  | [], image => (.ok (), image)
  | patch :: rest, image =>
    match patch.apply model image with
    | (.ok (), image) => applyAll model rest image
    | (.error err, image) => (.error err, image)

end FixedPatch
end BootStage
