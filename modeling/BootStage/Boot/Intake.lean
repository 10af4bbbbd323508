import BootStage.Device.Collaborators
/-!
# Loading a firmware

A plain image on the SD card is used where that is preferred and the image is sound; otherwise
the installed title is read, decrypted and verified. On New models the ARM9 binary is then
decrypted, and entered past its own loader.
-/

namespace BootStage

/-- The buffer a firmware is loaded into, with the collaborators that fill it. -/
structure Intake (σ κ : Type) where
  storage : σ
  crypto : κ
  buffer : Bytes

namespace Intake

variable {σ κ ω ε α : Type}

def onStorage (m : Run ω ε σ α) : Run ω ε (Intake σ κ) α :=
  Run.onPart storage (fun intake storage => { intake with storage }) m

def onCrypto (m : Run ω ε κ α) : Run ω ε (Intake σ κ) α :=
  Run.onPart crypto (fun intake crypto => { intake with crypto }) m

variable [Storage σ] [Crypto κ]

def getFile (path : String) : Run Event BootFailure (Intake σ κ) Nat := do
  let (result, buffer) ← onStorage (Storage.read path (← get).buffer)
  modify fun intake => { intake with buffer }
  Run.ofExcept (result.mapError .storage)

def readTitle (nand : Nand) (title : Title) :
    Run Event BootFailure (Intake σ κ) InstalledTitle := do
  Run.emit (.call (.readTitle nand title (← get).buffer.size))
  Run.ofStep fun intake =>
    let out := Storage.readTitle nand title intake.buffer intake.storage
    (out.result.mapError .storage, { intake with storage := out.state, buffer := out.buffer })

def decryptTitle : Run Event BootFailure (Intake σ κ) Unit := do
  Run.emit (.call (.decryptTitle (← get).buffer.size))
  Run.ofStep fun intake =>
    let out := Crypto.decryptTitle intake.buffer intake.crypto
    (out.result.mapError .crypto, { intake with crypto := out.state, buffer := out.buffer })

def checkSection (entry : Section) (payload : Bytes) :
    Run Event BootFailure (Intake σ κ) Unit := do
  Run.emit (.call (.checkSection entry payload))
  Run.mapFailure .crypto (onCrypto (Run.ofStep (Crypto.checkSection entry payload)))

/-- Decrypts the bytes `start ≤ i < stop` of the buffer as an ARM9 binary. -/
def unlockRange (start stop : Nat) (model : Model) :
    Run Event BootFailure (Intake σ κ) Unit := do
  Run.emit (.call (.decryptArm9 (stop - start) model))
  Run.ofStep fun intake =>
    let out := Crypto.decryptArm9 (intake.buffer.extract start stop) model intake.crypto
    (out.result.mapError .crypto,
      { intake with crypto := out.state, buffer := intake.buffer.overwrite start out.buffer })

def parse : Run Event BootFailure (Intake σ κ) Firm := do
  Run.ofExcept ((Firm.parse (← get).buffer).mapError .format)

end Intake

structure LoadedImage where
  source : ImageSource
  version : Option UInt32
  deriving DecidableEq, Repr

namespace LoadedImage

/-- ARM9 entrypoint past the loader of New-model firmwares. -/
def unlockedEntry (title : Title) : UInt32 :=
  if title.isFixedOffset then 0x0801301C else 0x0801B01C

variable {σ κ : Type} [Storage σ] [Crypto κ]

/-- Reads the image on the SD card. It has to be sound and made for the model. -/
def readImage (plan : Plan) : Run Event BootFailure (Intake σ κ) Unit := do
  let size ← Intake.getFile plan.title.imagePath
  match (← get).buffer.range? 0 size with
  | none => Run.outOfRange
  | some image =>
    let firm ← Run.ofExcept ((Firm.parse image).mapError .format)
    if firm.header.isFor plan.model then pure () else throw (.incompatible plan.title)

/-- Reads the installed title, and verifies every section of it. -/
def readInstalled (plan : Plan) : Run Event BootFailure (Intake σ κ) LoadedImage := do
  let installed ← Intake.readTitle plan.source plan.title
  Intake.decryptTitle
  let firm ← Intake.parse
  firm.header.sectionList.forM fun s => Intake.checkSection s (firm.payload s)
  Run.emit (.notice (.titleRead plan.source plan.title installed.version installed.size))
  return ⟨.nand, some installed.version⟩

omit [Storage σ] [Crypto κ] in
def moveEntry (title : Title) (firm : Firm) : Run Event BootFailure (Intake σ κ) Unit :=
  modify fun intake =>
    let firm := { firm with bytes := intake.buffer }
    { intake with buffer := (firm.withArm9Entry (unlockedEntry title)).bytes }

/-- Decrypts the ARM9 binary in the buffer, if there is one, and moves the entrypoint. -/
def unlock (plan : Plan) : Run Event BootFailure (Intake σ κ) Unit := do
  let firm ← Intake.parse
  if let some s := firm.section? plan.title.arm9Slot then
    Intake.unlockRange s.start s.stop plan.model
  moveEntry plan.title firm

/-- Reads from the card if that is preferred, and from the NAND if not or if that failed. -/
def read (plan : Plan) (preferCard : Bool) : Run Event BootFailure (Intake σ κ) LoadedImage := do
  if preferCard then
    match ← Run.attempt (readImage plan) with
    | .ok () => return ⟨.card, none⟩
    | .error err =>
      Run.emit (.notice (.cardImageRejected plan.title err))
      readInstalled plan
  else readInstalled plan

/-- Loads the firmware of a plan, ready to be patched. -/
def load (plan : Plan) (preferCard : Bool) : Run Event BootFailure (Intake σ κ) LoadedImage := do
  let loaded ← read plan preferCard
  if plan.model = .new then unlock plan
  Run.emit (.notice (.firmLoaded plan.title loaded.source loaded.version))
  return loaded

end LoadedImage
end BootStage
