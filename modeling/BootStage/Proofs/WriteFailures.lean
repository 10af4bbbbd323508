import BootStage.Proofs.BootEndings
import BootStage.Proofs.BootsAlike
import BootStage.Proofs.PatchFrame
/-!
# Writes that fail

A boot writes one file, its configuration, and does not look at what became of it. Boots that
differ only in that write make the same calls and end the same way, on the same machine.
-/

namespace BootStage

namespace FileStore

/-- The stores differ at most in the faults set for writes. -/
structure SameReads (s t : FileStore) : Prop where
  files : t.files = s.files
  readFault : t.readFault = s.readFault
  titles : t.titles = s.titles
  titleFault : t.titleFault = s.titleFault

/-- The stores differ at most in the faults set for writes, and in the file at `path`. -/
structure SameBut (path : String) (s t : FileStore) : Prop where
  files : ∀ name, name ≠ path → t.files name = s.files name
  readFault : t.readFault = s.readFault
  titles : t.titles = s.titles
  titleFault : t.titleFault = s.titleFault

theorem sameBut_putFile (path : String) (data : Bytes) (store : FileStore) :
    SameBut path store (Storage.putFile path data store).2 := by
  simp only [Storage.putFile]
  split
  · exact ⟨fun _ _ => rfl, rfl, rfl, rfl⟩
  · exact ⟨fun _ hname => if_neg hname, rfl, rfl, rfl⟩

theorem answerAlike (path : String) :
    Storage.AnswerAlike path SameReads (SameBut path) := by
  constructor
  case getFile =>
    intro name buffer s t h
    have hlookup : t.lookup name = s.lookup name := by simp only [lookup, h.files, h.readFault]
    simp only [Storage.getFile, hlookup]
    split <;> exact ⟨rfl, rfl, h⟩
  case readTitle =>
    intro nand title buffer s t h
    have hlookup : t.lookupTitle nand title = s.lookupTitle nand title := by
      simp only [lookupTitle, h.titles, h.titleFault]
    simp only [Storage.readTitle, hlookup]
    split <;> exact ⟨rfl, rfl, h⟩
  case putFile =>
    intro data s t h
    have hs := sameBut_putFile path data s
    have ht := sameBut_putFile path data t
    constructor
    case files =>
      intro name hname
      calc (Storage.putFile path data t).2.files name
          = t.files name := ht.files name hname
        _ = s.files name := congrFun h.files name
        _ = (Storage.putFile path data s).2.files name := (hs.files name hname).symm
    case readFault => rw [ht.readFault, h.readFault, hs.readFault]
    case titles => rw [ht.titles, h.titles, hs.titles]
    case titleFault => rw [ht.titleFault, h.titleFault, hs.titleFault]
  case unwritten => exact fun s t h =>
    ⟨fun name _ => congrFun h.files name, h.readFault, h.titles, h.titleFault⟩

end FileStore

namespace Boot

variable {σ τ κ δ : Type} [Storage σ] [Storage τ] [Crypto κ] [Card δ] {S S' : σ → τ → Prop}

/-- Two boots from the same machine, card, cipher and buffer, with storages that answer alike, come
to the same end through the same calls, and leave the same machine, card, cipher and buffer,
whatever comes of the writes of the configuration. -/
theorem run_alike_of_write (hstorage : Storage.AnswerAlike Config.path S S') (payloads : Payloads)
    {w : World σ κ δ} {w' : World τ κ δ} (h : World.Alike S Eq w w') :
    (run payloads w').1 = (run payloads w).1 ∧
      Event.calls (run payloads w').2.2 = Event.calls (run payloads w).2.2 ∧
      World.Alike S' Eq (run payloads w).2.1 (run payloads w').2.1 := by
  obtain ⟨hresult, hcalls, hstate⟩ :=
    alike_attempt hstorage Machine.bootAlike_eq payloads w w' h
  change Event.calls _ = Event.calls _ at hcalls
  cases hend : (attempt payloads w : Outcome Event BootFailure _ _).result with
  | ok _ =>
    rw [run_of_jumped hend, run_of_jumped (hresult.trans hend)]
    exact ⟨rfl, hcalls, hstate⟩
  | error stop =>
    cases stop with
    | outOfRange | stuck =>
      rw [run_of_stopped hend nofun, run_of_stopped (hresult.trans hend) nofun]
      exact ⟨rfl, hcalls, hstate⟩
    | failed err =>
      have hrun := run_of_failed hend
      have hrun' := run_of_failed (hresult.trans hend)
      dsimp only at hrun hrun'
      rw [hrun, hrun', ← hstate.machine, Event.calls_append, Event.calls_append, hcalls]
      exact ⟨rfl, rfl, hstate.intake, hstate.card, rfl⟩

/-- Holds a firmware in every NAND, and no file. -/
def titled (writeFault : String → Option StorageFailure) : FileStore :=
  { FileStore.empty with titles := fun _ _ => some (PatchSet.oneSection, 0), writeFault }

/-- A console whose recovery boot writes its record boots alike when that write fails. -/
theorem run_alike_of_write_recoverable :
    let payloads := PatchSet.emptyKit.payloads
    let w := console (titled fun _ => none) (Machine.idle.hold .recovery)
    let w' := console (titled fun path => if path = Config.path then some .io else none)
      (Machine.idle.hold .recovery)
    (run payloads w').1 = (run payloads w).1 ∧
      Event.calls (run payloads w').2.2 = Event.calls (run payloads w).2.2 ∧
      World.Alike (FileStore.SameBut Config.path) Eq (run payloads w).2.1 (run payloads w').2.1 :=
  run_alike_of_write (FileStore.answerAlike Config.path) PatchSet.emptyKit.payloads
    ⟨⟨⟨rfl, rfl, rfl, rfl⟩, rfl, rfl⟩, rfl, rfl⟩

end Boot
end BootStage
