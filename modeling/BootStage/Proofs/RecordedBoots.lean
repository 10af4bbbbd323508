import BootStage.Proofs.ConfigCodec
import BootStage.Proofs.Relaunch
/-!
# Recorded boots

A storage may refuse a read or a write, but does neither by halves. On such a storage a boot that
records its choices leaves a file that is read as the configuration with these choices, or leaves
the file as it was. Recording the same choices again writes nothing.
-/

namespace BootStage

variable {σ ε : Type} [Storage σ]

/-- A read of the file at `path` fails or gives the file, and a write fails without an effect or
stores the data. `holds file s` says that the storage `s` holds `file` there, or nothing. -/
structure Storage.AllOrNothing (path : String) (holds : Option Bytes → σ → Prop) : Prop where
  read : ∀ file buffer s size, holds file s →
    (Storage.getFile path buffer s).result = .ok size →
      ∃ found, file = some found ∧ size = found.size ∧
        (Storage.getFile path buffer s).buffer.extract 0 size = found
  read_keeps : ∀ file buffer s, holds file s → holds file (Storage.getFile path buffer s).state
  written : ∀ file data s, holds file s → (Storage.putFile path data s).1 = .ok () →
    holds (some data) (Storage.putFile path data s).2
  refused : ∀ file data s err, holds file s → (Storage.putFile path data s).1 = .error err →
    holds file (Storage.putFile path data s).2

namespace FileStore

theorem files_of_lookup {path : String} {found : Bytes} {store : FileStore}
    (h : store.lookup path = .ok found) : store.files path = some found := by
  unfold lookup at h
  cases hfault : store.readFault path with
  | some err =>
    rw [hfault] at h
    cases h
  | none =>
    rw [hfault] at h
    cases hfile : store.files path with
    | none =>
      rw [hfile] at h
      cases h
    | some file =>
      rw [hfile] at h
      exact congrArg some (Except.ok.inj h)

theorem allOrNothing (path : String) :
    Storage.AllOrNothing path fun file (store : FileStore) => store.files path = file where
  read file buffer store size hstore hread := by
    cases hlookup : store.lookup path with
    | error err =>
      simp only [Storage.getFile, hlookup] at hread
      cases hread
    | ok found =>
      by_cases hfits : found.size ≤ buffer.size
      · obtain ⟨hresult, hcopied⟩ := getFile_of_fits hlookup hfits
        obtain rfl := Except.ok.inj (hread.symm.trans hresult)
        exact ⟨found, hstore.symm.trans (files_of_lookup hlookup), rfl, hcopied⟩
      · obtain ⟨err, herr⟩ := getFile_of_oversized hlookup (Nat.lt_of_not_le hfits)
        exact nomatch hread.symm.trans herr
  read_keeps file buffer store hstore := by rw [state_getFile, hstore]
  written file data store hstore hput := by
    simp only [Storage.putFile] at hput ⊢
    cases hfault : store.writeFault path with
    | some err =>
      rw [hfault] at hput
      cases hput
    | none => exact if_pos rfl
  refused file data store err hstore hput := by
    simp only [Storage.putFile] at hput ⊢
    cases hfault : store.writeFault path with
    | some err => exact hstore
    | none =>
      rw [hfault] at hput
      cases hput

end FileStore

namespace Config

variable {holds : Option Bytes → σ → Prop} {file : Option Bytes} {s : σ}
  {config updated : Config} {origin : Origin} {plan : Plan}

/-! ## The record as a change of the configuration -/

/-- `updated` is `config` with the choices of `plan` recorded, and nothing else changed. -/
structure IsRecord (config : Config) (plan : Plan) (updated : Config) : Prop where
  nand : updated.recordedNand = plan.nand
  source : updated.recordedSource = plan.source
  recovered : updated.isOn .recovered = decide (plan.title = .safe)
  bits : ∀ i, ¬Field.nandUsed.Has i → ¬Field.sourceUsed.Has i → ¬Field.recovered.Has i →
    updated.word.toNat.testBit i = config.word.toNat.testBit i

theorem isRecord_of_recording? (hplan : plan.Recordable)
    (h : config.recording? plan.nand plan.source plan.title = some updated) :
    IsRecord config plan updated := by
  obtain ⟨hnand, hsource⟩ := recordedNands_of_recording? h hplan.1 hplan.2
  obtain ⟨first, hfirst, hrest⟩ := Option.bind_eq_some_iff.1 h
  obtain ⟨second, hsecond, hlast⟩ := Option.bind_eq_some_iff.1 hrest
  refine ⟨hnand, hsource, ?recovered, fun i hfree hfree' hfree'' => ?bits⟩
  case recovered =>
    rw [isOn, get_set?_same hlast]
    split
    · next hsafe => rw [decide_eq_true hsafe]; rfl
    · next hother => rw [decide_eq_false hother]; rfl
  case bits =>
    rw [(isSet_of_set? hlast).bits i hfree'', (isSet_of_set? hsecond).bits i hfree',
      (isSet_of_set? hfirst).bits i hfree]

theorem set?_get (config : Config) (field : Field) :
    config.set? field (config.get field) = some config :=
  (set?_eq_some_iff config field _ config).2 ⟨rfl, fun _ _ => rfl, fun _ _ => rfl⟩

theorem recording?_again {nand source : Nand} {title : Title}
    (h : config.recording? nand source title = some updated) :
    updated.recording? nand source title = some updated := by
  obtain ⟨hnand, hsource⟩ := recorded_of_recording? h
  obtain ⟨first, -, hrest⟩ := Option.bind_eq_some_iff.1 h
  obtain ⟨second, -, hlast⟩ := Option.bind_eq_some_iff.1 hrest
  rw [recording?, ← hnand, ← hsource, ← get_set?_same hlast, set?_get]
  rw [Option.bind_eq_bind, Option.bind_some, set?_get, Option.bind_some, set?_get]

/-! ## The record as a run -/

theorem save_cases (hstorage : Storage.AllOrNothing path holds) (hs : holds file s)
    (config : Config) :
    (save config s).result = .ok () ∧ holds (some config.encode) (save config s).state ∨
      ∃ err, (save config s).result = .error (.failed err) ∧ holds file (save config s).state := by
  have hsave : save config s =
      ⟨(Storage.putFile path config.encode s).1.mapError .failed,
        (Storage.putFile path config.encode s).2, [.call (.putFile path config.encode)]⟩ := by
    rw [save, Storage.write, Run.bind_of_ok rfl, Run.ofStep_apply]
    rfl
  rw [hsave]
  cases hput : (Storage.putFile path config.encode s).1 with
  | ok _ => exact .inl ⟨rfl, hstorage.written file config.encode s hs hput⟩
  | error err => exact .inr ⟨err, rfl, hstorage.refused file config.encode s err hs hput⟩

theorem load_of_allOrNothing (hstorage : Storage.AllOrNothing path holds) (hs : holds file s) :
    ∃ config origin,
      ((load : Run Event ε σ _) s).result = .ok (config, origin) ∧
      holds file ((load : Run Event ε σ _) s).state ∧
      (origin = .stored → loadedFrom file = (config, .stored)) ∧
      ∀ size, (Storage.getFile path loadBuffer s).result = .ok size →
        (config, origin) = loadedFrom file := by
  have hkept := hstorage.read_keeps file loadBuffer s hs
  cases hread : (Storage.getFile path loadBuffer s).result with
  | error err =>
    obtain ⟨hresult, hstate⟩ := load_of_error (ε := ε) hread
    exact ⟨.empty, .defaulted, hresult, hstate ▸ hkept, nofun, nofun⟩
  | ok size =>
    obtain ⟨found, rfl, rfl, hfound⟩ := hstorage.read file loadBuffer s size hs hread
    have hbuffer : (Storage.getFile path loadBuffer s).buffer.size = fileSize + 1 :=
      (Storage.size_getFile path loadBuffer s).trans Array.size_replicate
    have hfits : found.size ≤ fileSize + 1 := by
      have hsize := congrArg Array.size hfound
      rw [Array.size_extract, hbuffer] at hsize
      omega
    obtain ⟨hresult, hstate⟩ := load_of_ok (ε := ε) hread hfits
    rw [hfound] at hresult
    exact ⟨(loadedFrom (some found)).1, (loadedFrom (some found)).2, hresult, hstate ▸ hkept,
      fun hstored => Prod.ext rfl hstored, fun _ _ => rfl⟩

theorem exists_of_loadedFrom_stored (h : loadedFrom file = (config, .stored)) :
    ∃ found, file = some found ∧ decode found = .ok config := by
  cases file with
  | none => cases h
  | some found =>
    refine ⟨found, rfl, ?_⟩
    unfold loadedFrom at h
    dsimp only at h
    cases hdecode : decode found with
    | error err =>
      rw [hdecode] at h
      cases h
    | ok stored =>
      rw [hdecode] at h
      exact congrArg Except.ok (Prod.mk.inj h).1

def HoldsConfig (holds : Option Bytes → σ → Prop) (config : Config) (s : σ) : Prop :=
  ∃ found, holds (some found) s ∧ decode found = .ok config

theorem load_of_holdsConfig (hstorage : Storage.AllOrNothing path holds)
    (hs : HoldsConfig holds config s) {size : Nat}
    (hread : (Storage.getFile path loadBuffer s).result = .ok size) :
    ((load : Run Event ε σ _) s).result = .ok (config, .stored) := by
  obtain ⟨found, hfound, hdecode⟩ := hs
  obtain ⟨loaded, origin, hresult, -, -, hloaded⟩ :=
    load_of_allOrNothing (ε := ε) hstorage hfound
  have hstored : loadedFrom (some found) = (config, .stored) := by rw [loadedFrom, hdecode]
  rw [hresult, hloaded size hread, hstored]

/-- A record that is stored already is not written again. -/
theorem record_again (hcold : plan.kind = .cold)
    (hupdated : updated.recording? plan.nand plan.source plan.title = some updated) (s : σ) :
    record updated .stored plan s = ⟨.ok updated, s, []⟩ := by
  have hsame : ¬(Origin.stored = .defaulted ∨ updated ≠ updated) := by simp
  rw [record_of_recording? hcold hupdated, if_neg hsame]
  rfl

/-- The record is held in the end, or a write of it failed and the file is what it was. -/
theorem record_cases (hstorage : Storage.AllOrNothing path holds) (hs : holds file s)
    (hloaded : origin = .stored → loadedFrom file = (config, .stored))
    (hcold : plan.kind = .cold)
    (hupdated : config.recording? plan.nand plan.source plan.title = some updated) :
    (record config origin plan s).result = .ok updated ∧
        HoldsConfig holds updated (record config origin plan s).state ∨
      ∃ err, (record config origin plan s).result = .error (.failed err) ∧
        (origin = .defaulted ∨ updated ≠ config) ∧
        holds file (record config origin plan s).state := by
  rw [record_of_recording? hcold hupdated]
  by_cases hchanged : origin = .defaulted ∨ updated ≠ config
  · rw [if_pos hchanged]
    rcases save_cases hstorage hs updated with ⟨hresult, hwritten⟩ | ⟨err, hresult, hkept⟩
    · left
      rw [Run.bind_of_ok hresult]
      exact ⟨rfl, updated.encode, hwritten, decode_encode updated⟩
    · right
      rw [Run.bind_of_error hresult]
      exact ⟨err, rfl, hchanged, hkept⟩
  · -- Nothing is written: the file is there and holds the same configuration.
    left
    rw [if_neg hchanged]
    have hsame : updated = config := Decidable.not_not.1 fun hne => hchanged (.inr hne)
    have hstored : origin = .stored := by
      cases origin with
      | stored => rfl
      | defaulted => exact absurd (.inl rfl) hchanged
    obtain ⟨found, rfl, hdecode⟩ := exists_of_loadedFrom_stored (hloaded hstored)
    exact ⟨rfl, found, hs, hsame ▸ hdecode⟩

/-- On a storage that does nothing by halves, loading comes to a configuration whatever the file.
A relaunch records nothing. A cold boot whose images are in slots 1 to 7 has a record, which is
written unless it is what was stored. Then the file is read as the record, and loading it, if it
can be read, and recording the same choices again writes nothing; or the write failed, and the
file is what it was. -/
theorem record_after_load (hstorage : Storage.AllOrNothing path holds) (hs : holds file s) :
    ∃ config origin,
      ((load : Run Event ε σ _) s).result = .ok (config, origin) ∧
      holds file ((load : Run Event ε σ _) s).state ∧
      (∀ (plan : Plan) (t : σ), plan.kind = .relaunch →
        record config origin plan t = ⟨.ok config, t, []⟩) ∧
      ∀ (plan : Plan) (t : σ), plan.kind = .cold → plan.Recordable → holds file t →
        ∃ updated, IsRecord config plan updated ∧
          let out := record config origin plan t
          Event.calls out.events =
            (if origin = .defaulted ∨ updated ≠ config then [.putFile path updated.encode]
              else []) ∧
          (out.result = .ok updated ∧ HoldsConfig holds updated out.state ∧
              (∀ size, (Storage.getFile path loadBuffer out.state).result = .ok size →
                ((load : Run Event ε σ _) out.state).result = .ok (updated, .stored)) ∧
              (∀ again : σ, record updated .stored plan again = ⟨.ok updated, again, []⟩) ∨
            ∃ err, out.result = .error (.failed err) ∧
              (origin = .defaulted ∨ updated ≠ config) ∧ holds file out.state) := by
  obtain ⟨config, origin, hresult, hkept, hloaded, -⟩ :=
    load_of_allOrNothing (ε := ε) hstorage hs
  refine ⟨config, origin, hresult, hkept, fun plan t hrelaunch => ?relaunch,
    fun plan t hcold hplan ht => ?cold⟩
  case relaunch =>
    rw [record, hrelaunch]
    rfl
  case cold =>
    obtain ⟨updated, hupdated⟩ := Option.isSome_iff_exists.1
      (config.recording?_isSome plan.title hplan.1 hplan.2)
    refine ⟨updated, isRecord_of_recording? hplan hupdated, calls_record_cold hcold hupdated t, ?_⟩
    rcases record_cases hstorage ht hloaded hcold hupdated with ⟨hok, hheld⟩ | hfailed
    · exact .inl ⟨hok, hheld, fun size hread => load_of_holdsConfig hstorage hheld hread,
        record_again hcold (recording?_again hupdated)⟩
    · exact .inr hfailed

/-! ## A file of another version -/

/-- The file of an empty configuration, but with major version 0. -/
def foreignFile : Bytes :=
  magic ++ Bytes.ofHalf 0 ++ Bytes.ofHalf 0 ++ Bytes.ofWord 0

def foreignStore : FileStore :=
  FileStore.empty.setFile path (some foreignFile)

def idlePlan : Plan :=
  Plan.starting (Boot.idleInputs 0 .empty)

theorem holds_foreignStore : FileStore.Holds path (some foreignFile) foreignStore := by
  have hfile : (if path = path then some foreignFile else none) = some foreignFile := if_pos rfl
  exact ⟨hfile, rfl, rfl⟩

theorem recordable_idlePlan : idlePlan.Recordable :=
  Plan.recordable_starting _

/-- The file is replaced by one that records slot 1, and is kept from then on. -/
theorem record_after_load_foreign :
    Storage.AllOrNothing path (fun file (store : FileStore) => store.files path = file) ∧
      ((load : Run Event BootFailure FileStore _) foreignStore).result =
        .ok (.empty, .defaulted) ∧
      let out := record .empty .defaulted idlePlan foreignStore
      Event.calls out.events = [.putFile path (encode ⟨9⟩)] ∧ out.result = .ok ⟨9⟩ ∧
        HoldsConfig (fun file (store : FileStore) => store.files path = file) ⟨9⟩ out.state ∧
        ((load : Run Event BootFailure FileStore _) out.state).result = .ok (⟨9⟩, .stored) ∧
        record ⟨9⟩ .stored idlePlan out.state = ⟨.ok ⟨9⟩, out.state, []⟩ := by
  have hstorage := FileStore.allOrNothing path
  have hreliable := FileStore.reliable path
  have hloaded : loadedFrom (some foreignFile) = (.empty, .defaulted) := rfl
  have hupdated : empty.recording? idlePlan.nand idlePlan.source idlePlan.title = some ⟨9⟩ := by
    decide
  -- Without faults the record is made, and its file can be read.
  obtain ⟨recorded, hrecorded, hrecord⟩ := yields_record hreliable hloaded rfl hupdated
  obtain ⟨hdone, hheld⟩ := hrecord foreignStore holds_foreignStore
  obtain ⟨found, rfl, hdecode⟩ := exists_of_loadedFrom_stored hrecorded
  have hsize := (isFile_of_decode hdecode).size
  have hfits : found.size ≤ loadBuffer.size := by
    rw [hsize]
    decide
  have hread := (FileStore.getFile_of_fits (FileStore.lookup_of_holds hheld) hfits).1
  have hfirst := (yields_load (ε := BootFailure) hreliable _ foreignStore holds_foreignStore).1
  obtain ⟨config, origin, hresult, -, -, hcold⟩ :=
    record_after_load (ε := BootFailure) hstorage holds_foreignStore.files
  obtain ⟨rfl, rfl⟩ := Prod.mk.inj (Except.ok.inj (hresult.symm.trans hfirst))
  obtain ⟨updated, -, hcalls, ⟨hok, hconfig, hload, hagain⟩ | ⟨err, hfailed, -⟩⟩ :=
    hcold idlePlan foreignStore rfl recordable_idlePlan holds_foreignStore.files
  · obtain rfl := Except.ok.inj (hok.symm.trans hdone)
    exact ⟨hstorage, hresult, hcalls, hok, hconfig, hload _ hread, hagain _⟩
  · exact nomatch hfailed.symm.trans hdone

end Config
end BootStage
