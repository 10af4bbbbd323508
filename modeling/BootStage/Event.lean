import BootStage.Notice
/-!
# Events

A boot is observed through the calls it makes to its collaborators and the notices it gives,
in the order they happen. A call is listed before its outcome is known.
-/

namespace BootStage

/-- A call to a collaborator. -/
inductive Call where
  | getFile (path : String) (capacity : Nat)
  | putFile (path : String) (data : Bytes)
  | readTitle (nand : Nand) (title : Title) (capacity : Nat)
  | decryptTitle (size : Nat)
  | checkSection (entry : Section) (payload : Bytes)
  | decryptArm9 (size : Nat) (model : Model)
  | getSector (sector : UInt32)
  | drawSplash
  | drawFailure (err : BootFailure)
  | shutDown
  deriving DecidableEq, Repr

/-- What can be observed of a boot. -/
inductive Event where
  | call (call : Call)
  | notice (notice : Notice)
  deriving DecidableEq, Repr

namespace Event

def call? : Event → Option Call
  | call c => some c
  | notice _ => none

def notice? : Event → Option Notice
  | call _ => none
  | notice n => some n

def calls (events : List Event) : List Call :=
  events.filterMap call?

def notices (events : List Event) : List Notice :=
  events.filterMap notice?

end Event
end BootStage
