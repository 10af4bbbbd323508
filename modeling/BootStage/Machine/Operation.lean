/-!
# Requests to the second core

The operations the ARM11 core carries out for the boot stage, by their codes.
-/

namespace BootStage

/-- An operation of the ARM11 service loop. -/
inductive Operation where
  | powerUpScreens
  | layOutFrames
  | blankScreens
  | flipFrames
  | setBrightness
  | powerDownScreens
  /-- Move the service loop out of the way of an incoming kernel. -/
  | makeWay
  | ready
  deriving DecidableEq, Repr

namespace Operation

def all : List Operation :=
  [powerUpScreens, layOutFrames, blankScreens, flipFrames, setBrightness,
    powerDownScreens, makeWay, ready]

def code : Operation → UInt32
  | powerUpScreens => 0
  | layOutFrames => 1
  | blankScreens => 2
  | flipFrames => 3
  | setBrightness => 4
  | powerDownScreens => 5
  | makeWay => 6
  | ready => 7

def name : Operation → String
  | powerUpScreens => "InitScreens"
  | layOutFrames => "SetupFramebuffers"
  | blankScreens => "ClearScreens"
  | flipFrames => "SwapFramebuffers"
  | setBrightness => "UpdateBrightness"
  | powerDownScreens => "DeinitScreens"
  | makeWay => "PrepareForFirmlaunch"
  | ready => "Ready"

end Operation
end BootStage
