import BootStage.Config.Store
import BootStage.Device.InMemory
import BootStage.Proofs.ConfigFields
import BootStage.Proofs.Slots
/-!
# The stored configuration

On a storage whose configuration file can be read and written, loading the configuration is a
function of the file, and what a cold boot records is what is loaded from then on, whether the
record had to be written or stood there already.
-/

namespace BootStage

variable {σ ε : Type} [Storage σ]

/-- Reads and writes of the file at `path` do not fail. `holds file s` says that the storage `s`
holds `file` there, or nothing. -/
structure Storage.Reliable (path : String) (holds : Option Bytes → σ → Prop) : Prop where
  /-- A file that fits the buffer is read into its start, and its size is given. -/
  read_fitting : ∀ file buffer s, holds (some file) s → file.size ≤ buffer.size →
    (Storage.getFile path buffer s).result = .ok file.size ∧
      (Storage.getFile path buffer s).buffer.extract 0 file.size = file
  read_oversized : ∀ file buffer s, holds (some file) s → buffer.size < file.size →
    ∃ err, (Storage.getFile path buffer s).result = .error err
  read_absent : ∀ buffer s, holds none s →
    ∃ err, (Storage.getFile path buffer s).result = .error err
  read_keeps : ∀ file buffer s, holds file s → holds file (Storage.getFile path buffer s).state
  write : ∀ file data s, holds file s →
    (Storage.putFile path data s).1 = .ok () ∧ holds (some data) (Storage.putFile path data s).2

/-- The store has `file` at `path`, or nothing there, and no fault set for it. -/
structure FileStore.Holds (path : String) (file : Option Bytes) (store : FileStore) : Prop where
  files : store.files path = file
  readFault : store.readFault path = none
  writeFault : store.writeFault path = none

namespace FileStore

theorem lookup_of_holds {path : String} {file : Option Bytes} {store : FileStore}
    (h : Holds path file store) :
    store.lookup path = match file with
      | some found => .ok found
      | none => .error .absent := by
  unfold lookup
  rw [h.readFault, h.files]
  cases file <;> rfl

theorem getFile_of_lookup {path : String} {file : Bytes} {store : FileStore} (buffer : Bytes)
    (h : store.lookup path = .ok file) :
    Storage.getFile path buffer store =
      ⟨(buffer.receive file).1, (buffer.receive file).2, store⟩ := by
  simp only [Storage.getFile, h]

theorem state_getFile (path : String) (buffer : Bytes) (store : FileStore) :
    (Storage.getFile path buffer store).state = store := by
  simp only [Storage.getFile]
  split <;> rfl

theorem getFile_of_fits {path : String} {file buffer : Bytes} {store : FileStore}
    (h : store.lookup path = .ok file) (hfits : file.size ≤ buffer.size) :
    (Storage.getFile path buffer store).result = .ok file.size ∧
      (Storage.getFile path buffer store).buffer.extract 0 file.size = file := by
  have hreceive : buffer.receive file = (.ok file.size, buffer.overwrite 0 file) :=
    if_neg (by omega)
  have hcopied := Bytes.extract_overwrite buffer 0 file (by omega)
  rw [Nat.zero_add] at hcopied
  rw [getFile_of_lookup buffer h, hreceive]
  exact ⟨rfl, hcopied⟩

theorem getFile_of_oversized {path : String} {file buffer : Bytes} {store : FileStore}
    (h : store.lookup path = .ok file) (hfits : buffer.size < file.size) :
    ∃ err, (Storage.getFile path buffer store).result = .error err := by
  have hreceive : buffer.receive file = (.error (.oversized file.size buffer.size), buffer) :=
    if_pos hfits
  rw [getFile_of_lookup buffer h, hreceive]
  exact ⟨_, rfl⟩

theorem reliable (path : String) : Storage.Reliable path (Holds path) where
  read_fitting file buffer store hstore hfits := getFile_of_fits (lookup_of_holds hstore) hfits
  read_oversized file buffer store hstore hfits :=
    getFile_of_oversized (lookup_of_holds hstore) hfits
  read_absent buffer store hstore := by
    have hlookup : store.lookup path = .error .absent := lookup_of_holds hstore
    refine ⟨.absent, ?_⟩
    simp only [Storage.getFile, hlookup]
  read_keeps file buffer store hstore := by
    rw [state_getFile]
    exact hstore
  write file data store hstore := by
    have hput : Storage.putFile path data store = (.ok (), store.setFile path (some data)) := by
      simp only [Storage.putFile, hstore.writeFault]
    rw [hput]
    exact ⟨rfl, if_pos rfl, hstore.readFault, hstore.writeFault⟩

end FileStore

namespace Config

variable {holds : Option Bytes → σ → Prop}

def loadedFrom : Option Bytes → Config × Origin
  | none => (.empty, .defaulted)
  | some file =>
    match decode file with
    | .ok config => (config, .stored)
    | .error _ => (.empty, .defaulted)

theorem loadedFrom_encode (config : Config) :
    loadedFrom (some config.encode) = (config, .stored) := by
  rw [loadedFrom, decode_encode]

theorem loadedFrom_oversized {file : Bytes} (h : fileSize + 1 < file.size) :
    loadedFrom (some file) = (.empty, .defaulted) := by
  rw [loadedFrom, decode, if_pos (by omega)]

omit [Storage σ] in
theorem yields_adopt_error {I : σ → Prop} (err : StorageFailure) (buffer : Bytes) :
    Run.Yields I I (adopt (.error err) buffer : Run Event ε σ _) (.empty, .defaulted) :=
  Run.Yields.emit.bind .pure

omit [Storage σ] in
theorem yields_adopt_ok {I : σ → Prop} (n : Nat) (buffer : Bytes) (h : n ≤ buffer.size) :
    Run.Yields I I (adopt (.ok n) buffer : Run Event ε σ _)
      (loadedFrom (some (buffer.extract 0 n))) := by
  unfold adopt loadedFrom
  dsimp only
  rw [Bytes.range?_eq_some (Nat.zero_le n) h]
  dsimp only
  cases decode (buffer.extract 0 n) with
  | ok config => exact .pure
  | error err => exact Run.Yields.emit.bind .pure

def loadBuffer : Bytes :=
  Array.replicate (fileSize + 1) 0

theorem load_of_read {s : σ} {read : Except StorageFailure Nat}
    (hread : (Storage.getFile path loadBuffer s).result = read) {loaded : Config × Origin}
    (hadopt : ∀ t, Run.Yields (· = t) (· = t) (adopt read
      (Storage.getFile path loadBuffer s).buffer : Run Event ε σ _) loaded) :
    ((load : Run Event ε σ _) s).result = .ok loaded ∧
      ((load : Run Event ε σ _) s).state = (Storage.getFile path loadBuffer s).state := by
  have hload : (load : Run Event ε σ _) s = Run.andThen
      ⟨.ok (read, (Storage.getFile path loadBuffer s).buffer),
        (Storage.getFile path loadBuffer s).state, [.call (.getFile path loadBuffer.size)]⟩
      fun found => adopt found.1 found.2 := by
    rw [← hread]
    rfl
  rw [hload]
  exact hadopt _ _ rfl

theorem load_of_error {s : σ} {err : StorageFailure}
    (hread : (Storage.getFile path loadBuffer s).result = .error err) :
    ((load : Run Event ε σ _) s).result = .ok (.empty, .defaulted) ∧
      ((load : Run Event ε σ _) s).state = (Storage.getFile path loadBuffer s).state :=
  load_of_read hread fun _ => yields_adopt_error err _

theorem load_of_ok {s : σ} {n : Nat}
    (hread : (Storage.getFile path loadBuffer s).result = .ok n) (hn : n ≤ fileSize + 1) :
    ((load : Run Event ε σ _) s).result =
        .ok (loadedFrom (some ((Storage.getFile path loadBuffer s).buffer.extract 0 n))) ∧
      ((load : Run Event ε σ _) s).state = (Storage.getFile path loadBuffer s).state := by
  have hsize : (Storage.getFile path loadBuffer s).buffer.size = fileSize + 1 :=
    (Storage.size_getFile path loadBuffer s).trans Array.size_replicate
  exact load_of_read hread fun _ => yields_adopt_ok n _ (by omega)

theorem yields_load (hstorage : Storage.Reliable path holds) (file : Option Bytes) :
    Run.Yields (holds file) (holds file) (load : Run Event ε σ _) (loadedFrom file) := by
  intro s hs
  have hkept := hstorage.read_keeps file loadBuffer s hs
  have hbuffer : loadBuffer.size = fileSize + 1 := Array.size_replicate
  have hfailed : ∀ err, (Storage.getFile path loadBuffer s).result = .error err →
      loadedFrom file = (.empty, .defaulted) →
        ((load : Run Event ε σ _) s).result = .ok (loadedFrom file) ∧
          holds file ((load : Run Event ε σ _) s).state := by
    intro err herr hnone
    obtain ⟨hresult, hstate⟩ := load_of_error (ε := ε) herr
    rw [hresult, hstate, hnone]
    exact ⟨rfl, hkept⟩
  cases file with
  | none =>
    obtain ⟨err, herr⟩ := hstorage.read_absent loadBuffer s hs
    exact hfailed err herr rfl
  | some found =>
    by_cases hfits : found.size ≤ fileSize + 1
    · obtain ⟨hok, hread⟩ := hstorage.read_fitting found loadBuffer s hs (by omega)
      obtain ⟨hresult, hstate⟩ := load_of_ok (ε := ε) hok hfits
      rw [hresult, hstate, hread]
      exact ⟨rfl, hkept⟩
    · obtain ⟨err, herr⟩ := hstorage.read_oversized found loadBuffer s hs (by omega)
      exact hfailed err herr (loadedFrom_oversized (by omega))

theorem yields_save (hstorage : Storage.Reliable path holds) (file : Option Bytes)
    (config : Config) :
    Run.Yields (holds file) (holds (some config.encode)) (save config) () := by
  refine Run.Yields.emit.bind fun s hs => ?_
  obtain ⟨hok, hwritten⟩ := hstorage.write file config.encode s hs
  unfold Run.ofStep
  generalize Storage.putFile path config.encode s = out at hok hwritten ⊢
  obtain ⟨result, s'⟩ := out
  subst hok
  exact ⟨rfl, hwritten⟩

/-- A record that can be made is made, and is what is loaded from the file it leaves. -/
theorem yields_record (hstorage : Storage.Reliable path holds) {file : Option Bytes}
    {config updated : Config} {origin : Origin} {plan : Plan}
    (hloaded : loadedFrom file = (config, origin)) (hcold : plan.kind = .cold)
    (hupdated : config.recording? plan.nand plan.source plan.title = some updated) :
    ∃ recorded, loadedFrom recorded = (updated, .stored) ∧
      Run.Yields (holds file) (holds recorded) (record config origin plan) updated := by
  rw [record_of_recording? hcold hupdated]
  by_cases hchanged : origin = .defaulted ∨ updated ≠ config
  · refine ⟨some updated.encode, loadedFrom_encode updated, ?_⟩
    have hsave := yields_save hstorage file updated
    exact .guarded (a := ()) (fun _ => hsave) (fun hsame => absurd hchanged hsame) .pure
  · -- Nothing is written: the file is there and holds the same configuration.
    have hsame : updated = config := Decidable.not_not.1 fun hne => hchanged (.inr hne)
    have hstored : origin = .stored := by
      cases origin with
      | stored => rfl
      | defaulted => exact absurd (.inl rfl) hchanged
    refine ⟨file, ?_, ?_⟩
    · rw [hloaded, hsame, hstored]
    · exact .guarded (a := ()) (fun hsave => absurd hsave hchanged) (fun _ _ hs => hs) .pure

end Config
end BootStage
