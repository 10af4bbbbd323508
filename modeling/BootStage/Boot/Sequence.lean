import BootStage.Boot.HandOver
import BootStage.Boot.Intake
import BootStage.Config.Store
import BootStage.CardImage
import BootStage.PatchSet.ByTitle
/-!
# A whole boot

A boot reads its configuration, decides, finds the NAND images, loads, records, patches and
hands over. It ends in the patched firmware, or with the console powered off after an error
was shown and a button freshly pressed.
-/

namespace BootStage

/-- The console together with its collaborators. -/
structure World (σ κ δ : Type) where
  intake : Intake σ κ
  card : δ
  machine : Machine

inductive Ending where
  | jumped
  | poweredOff
  | stuck
  /-- It used a range outside its buffer, or a value too wide for its field. -/
  | outOfRange
  deriving DecidableEq, Repr

namespace World

variable {σ κ δ ε α : Type}

def onIntake (m : Run Event ε (Intake σ κ) α) : Run Event ε (World σ κ δ) α :=
  Run.onPart intake (fun w intake => { w with intake }) m

def onStorage (m : Run Event ε σ α) : Run Event ε (World σ κ δ) α :=
  onIntake (Intake.onStorage m)

def onCard (m : Run Event ε δ α) : Run Event ε (World σ κ δ) α :=
  Run.onPart card (fun w card => { w with card }) m

def onMachine (m : Run Notice ε Machine α) : Run Event ε (World σ κ δ) α :=
  Run.mapEvents .notice (Run.onPart machine (fun w machine => { w with machine }) m)

/-- Edits a container whose bytes are those of the buffer. -/
def onFirm (firm : Firm) (edit : FirmEdit α) : Run Event BootFailure (World σ κ δ) α :=
  let update (w : World σ κ δ) (edited : Firm) : World σ κ δ :=
    { w with intake := { w.intake with buffer := edited.bytes } }
  Run.mapEvents .notice (Run.mapFailure .patch (Run.onPart (fun _ => firm) update edit))

end World

namespace Boot

variable {σ κ δ : Type}

/-- How often buttons are looked at while an error is shown. -/
def pollMs : UInt32 := 10

/-- Waits until buttons still held were released and one is pressed. -/
def awaitPress : Run Event BootFailure Machine Unit := do
  match (← get).sleepUntil (· == .none) pollMs with
  | none => Run.stuck
  | some released =>
    match released.sleepUntil (· != .none) pollMs with
    | none => Run.stuck
    | some pressed => set pressed

def drawFailure (err : BootFailure) : Run Event BootFailure Machine Unit := do
  Run.emit (.notice (.failed err))
  Run.emit (.call (.drawFailure err))
  awaitPress
  Run.emit (.call .shutDown)

def decide {τ : Type} (inputs : Inputs) : Run Notice BootFailure τ Plan := do
  let plan ← Run.ofExcept (Plan.ofInputs inputs)
  Run.emit (.planned plan)
  return plan

def drawSplash (plan : Plan) : Run Event BootFailure (World σ κ δ) Unit := do
  if let some delay := plan.splash then
    Run.emit (.call .drawSplash)
    World.onMachine (modify (·.sleep delay))

variable [Storage σ] [Crypto κ] [Card δ]

/-- Records the choices of a boot. A boot goes on without its record. -/
def recordPlan (config : Config) (origin : Config.Origin) (plan : Plan) :
    Run Event BootFailure (World σ κ δ) Unit := do
  match ← Run.attempt (World.onStorage (Config.record config origin plan)) with
  | .ok _ => pure ()
  | .error err => Run.emit (.notice (.recordFailed err))

/-- Decides on `inputs`, and brings the decision in line with the images that exist. -/
def settle (inputs : Inputs) :
    Run Event BootFailure (World σ κ δ) (Plan × Option ImageLocation) := do
  let plan ← Run.mapEvents .notice (decide inputs)
  drawSplash plan
  World.onCard (CardImage.resolve plan)

/-- What a boot has found out once its firmware is loaded. -/
structure Fetched where
  config : Config
  origin : Config.Origin
  plan : Plan
  location : Option ImageLocation
  loaded : LoadedImage
  deriving DecidableEq, Repr

def Fetched.kit (found : Fetched) (payloads : Payloads) (developmentUnit : Bool) : PatchKit where
  payloads
  location := found.location
  version := found.loaded.version
  config := found.config
  developmentUnit

def fetchWith (config : Config) (origin : Config.Origin) :
    Run Event BootFailure (World σ κ δ) Fetched := do
  let (plan, location) ← settle ((← get).machine.inputs config)
  let loaded ← World.onIntake (LoadedImage.load plan (config.isOn .loadExternal))
  return { config, origin, plan, location, loaded }

/-- A boot until its firmware is loaded. -/
def fetch : Run Event BootFailure (World σ κ δ) Fetched := do
  let (config, origin) ← World.onStorage Config.load
  fetchWith config origin

/-- Patches the firmware in the buffer. Gives its module section, with its place, where that
was rebuilt. -/
def patchLoaded (plan : Plan) (kit : PatchKit) :
    Run Event BootFailure (World σ κ δ) (Option (Section × Bytes)) := do
  let firm ← World.onIntake Intake.parse
  let modules ← World.onFirm firm (PatchSet.apply plan kit)
  return match firm.section? 0, modules with
    | some s, some modules => some (s, modules)
    | _, _ => none

/-- A boot up to the point from which physical memory is written. -/
def prepare (payloads : Payloads) :
    Run Event BootFailure (World σ κ δ) (Plan × Option (Section × Bytes)) := do
  let found ← fetch
  recordPlan found.config found.origin found.plan
  let developmentUnit := (← get).machine.isDevelopmentUnit
  let rebuilt ← patchLoaded found.plan (found.kit payloads developmentUnit)
  return (found.plan, rebuilt)

def placeRebuilt : Option (Section × Bytes) → Run Notice BootFailure Machine Unit
  | some (s, modules) => HandOver.place 0 s.address modules
  | none => pure ()

def handOver (plan : Plan) (rebuilt : Option (Section × Bytes)) :
    Run Event BootFailure (World σ κ δ) Unit := do
  World.onMachine (placeRebuilt rebuilt)
  let firm ← World.onIntake Intake.parse
  Run.emit (.notice .prepared)
  World.onMachine (HandOver.launch firm plan)

/-- A boot up to its jump, or to its failure. -/
def attempt (payloads : Payloads) : Run Event BootFailure (World σ κ δ) Unit := do
  let (plan, rebuilt) ← prepare payloads
  handOver plan rebuilt

def endingOf : Stop BootFailure → Ending
  | .failed _ => .poweredOff
  | .outOfRange => .outOfRange
  | .stuck => .stuck

/-- How a boot ends that went on to show its failure. -/
def closingOf : Except (Stop BootFailure) Unit → Ending
  | .ok () => .poweredOff
  | .error stop => endingOf stop

def run (payloads : Payloads) (world : World σ κ δ) : Ending × World σ κ δ × List Event :=
  let booted := attempt payloads world
  match booted.result with
  | .ok () => (.jumped, booted.state, booted.events)
  | .error .outOfRange => (.outOfRange, booted.state, booted.events)
  | .error .stuck => (.stuck, booted.state, booted.events)
  | .error (.failed err) =>
    let shown := drawFailure err booted.state.machine
    (closingOf shown.result, { booted.state with machine := shown.state },
      booted.events ++ shown.events)

end Boot
end BootStage
