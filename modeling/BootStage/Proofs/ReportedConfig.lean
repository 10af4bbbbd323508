import BootStage.Proofs.BootsAlike
import BootStage.Proofs.JumpingBoots
import BootStage.Proofs.KernelWrites
import BootStage.Proofs.SystemPatches
/-!
# The configuration programs are told

The kernel of the system firmware is patched with the configuration as it was loaded. A cold boot
records its choices before that, but what is reported is not what was recorded: programs are told
the word of the file as the boot found it, and the file holds the word with this boot's choices.
-/

namespace BootStage

/-- Reading, of any file or title, leaves the file at `path` as it is. -/
structure Storage.ReadsKeep (σ : Type) [Storage σ] (path : String)
    (holds : Option Bytes → σ → Prop) : Prop extends Storage.Reliable path holds where
  getFile_keeps : ∀ file other buffer s, holds file s →
    holds file (Storage.getFile other buffer s).state
  readTitle_keeps : ∀ file nand title buffer s, holds file s →
    holds file (Storage.readTitle nand title buffer s).state

theorem FileStore.state_readTitle (nand : Nand) (title : Title) (buffer : Bytes)
    (store : FileStore) : (Storage.readTitle nand title buffer store).state = store := by
  simp only [Storage.readTitle]
  split <;> rfl

theorem FileStore.readsKeep (path : String) :
    Storage.ReadsKeep FileStore path (FileStore.Holds path) where
  toReliable := FileStore.reliable path
  getFile_keeps file other buffer store hstore := by
    rw [FileStore.state_getFile]
    exact hstore
  readTitle_keeps file nand title buffer store hstore := by
    rw [FileStore.state_readTitle]
    exact hstore

variable {σ κ δ α : Type} [Storage σ] {holds : Option Bytes → σ → Prop} {path : String}

theorem Storage.ReadsKeep.answerAlike (h : Storage.ReadsKeep σ path holds) (file : Option Bytes) :
    Storage.AnswerAlike path (fun s t : σ => t = s ∧ holds file s) (fun s t => t = s) := by
  constructor
  case getFile =>
    rintro name buffer s _ ⟨rfl, hs⟩
    exact ⟨rfl, rfl, rfl, h.getFile_keeps file name buffer _ hs⟩
  case readTitle =>
    rintro nand title buffer s _ ⟨rfl, hs⟩
    exact ⟨rfl, rfl, rfl, h.readTitle_keeps file nand title buffer _ hs⟩
  case putFile =>
    rintro data s _ ⟨rfl, -⟩
    rfl
  case unwritten => exact fun _ _ hst => hst.1

/-- A place at which a patched container reports a configuration. -/
structure KernelReport where
  entry : Section
  kernel : Kernel
  arena : Arena
  patch : KernelPatch
  deriving DecidableEq, Repr

namespace KernelReport

def word (report : KernelReport) (bytes : Bytes) : UInt32 :=
  Bytes.word (bytes.extract report.entry.start report.entry.stop) report.patch.configPos

/-- The report is what patching with a kit has made of the container `loaded`. -/
structure Of (report : KernelReport) (kit : PatchKit) (loaded patched : Bytes) : Prop where
  patched : ∃ firm middle, Firm.parse loaded = .ok firm ∧
    firm.section? PatchSet.System.kernelSlot = some report.entry ∧
    firm.ChangedWithin (firm.InSection PatchSet.System.arm9Slot) middle ∧
    Kernel.locate (middle.payload report.entry) = .ok report.kernel ∧
    Arena.locate (middle.payload report.entry) report.kernel = .ok report.arena ∧
    report.patch.Makes kit report.kernel report.arena (middle.payload report.entry)
      (patched.extract report.entry.start report.entry.stop)

theorem Of.word_eq {report : KernelReport} {kit : PatchKit} {loaded patched : Bytes}
    (h : report.Of kit loaded patched) (hkeeps : report.patch.KeepsConfig report.kernel) :
    report.word patched = kit.config.word := by
  obtain ⟨firm, middle, -, -, -, -, -, hmakes⟩ := h.patched
  exact hmakes.word_configPos hkeeps

theorem Of.made {report : KernelReport} {kit : PatchKit} {loaded patched : Bytes}
    (h : report.Of kit loaded patched) {firm : Firm} (hparse : Firm.parse loaded = .ok firm)
    {arm9 kernel : Section} (harm9 : firm.section? PatchSet.System.arm9Slot = some arm9)
    (hkernel : firm.section? PatchSet.System.kernelSlot = some kernel)
    (hapart : arm9.ApartFrom kernel) :
    Kernel.locate (firm.payload kernel) = .ok report.kernel ∧
      Arena.locate (firm.payload kernel) report.kernel = .ok report.arena ∧
      report.patch.Makes kit report.kernel report.arena (firm.payload kernel)
        (patched.extract kernel.start kernel.stop) := by
  obtain ⟨firm', middle, hfirm, hentry, hmiddle, hlocate, harena, hmakes⟩ := h.patched
  obtain rfl := Except.ok.inj (hfirm.symm.trans hparse)
  have hsame : report.entry = kernel := Option.some.inj (hentry.symm.trans hkernel)
  rw [hsame, hmiddle.payload_of_apart harm9 hapart] at hlocate harena hmakes
  exact ⟨hlocate, harena, hmakes⟩

end KernelReport

namespace Boot

variable [Crypto κ] [Card δ] {w : World σ κ δ} {file : Option Bytes} {config : Config}
  {origin : Config.Origin} {plan : Plan}

/-! ## The stages -/

/-- A boot that fetched its firmware has loaded what the file held, and left the file alone. -/
theorem fetch_keeps (hstorage : Storage.ReadsKeep σ Config.path holds)
    (hfile : holds file w.intake.storage) {found : Fetched}
    (h : (fetch w : Outcome Event BootFailure _ _).result = .ok found) :
    Config.loadedFrom file = (found.config, found.origin) ∧
      holds file (fetch w : Outcome Event BootFailure _ _).state.intake.storage := by
  have hself := alike_fetch (hstorage.answerAlike file) Machine.bootAlike_eq w w
    ⟨⟨⟨rfl, hfile⟩, rfl, rfl⟩, rfl, rfl⟩
  refine ⟨?_, hself.state.intake.storage.2⟩
  obtain ⟨loaded, hload, hrest⟩ := Run.of_bind_ok h
  have hyields := Config.yields_load (ε := BootFailure) hstorage.toReliable file _ hfile
  have hloaded : Config.loadedFrom file = loaded := Except.ok.inj (hyields.1.symm.trans hload)
  obtain ⟨now, -, hrest⟩ := Run.of_bind_ok hrest
  obtain ⟨settled, -, hrest⟩ := Run.of_bind_ok hrest
  obtain ⟨image, -, hfound⟩ := Run.of_bind_ok hrest
  obtain rfl := Except.ok.inj hfound
  exact hloaded

omit [Crypto κ] [Card δ] in
/-- A cold boot that goes on past its record has made it, and has changed nothing else. -/
theorem recordPlan_eq_ok (hstorage : Storage.Reliable Config.path holds)
    (hfile : holds file w.intake.storage) (hloaded : Config.loadedFrom file = (config, origin))
    (hcold : plan.kind = .cold)
    (h : (recordPlan config origin plan w : Outcome Event BootFailure _ _).result = .ok ()) :
    ∃ updated recorded storage,
      config.recording? plan.nand plan.source plan.title = some updated ∧
      Config.loadedFrom recorded = (updated, .stored) ∧ holds recorded storage ∧
      (recordPlan config origin plan w : Outcome Event BootFailure _ _).state =
        { w with intake := { w.intake with storage } } := by
  cases hupdated : config.recording? plan.nand plan.source plan.title with
  | none =>
    simp only [recordPlan, Config.record, hcold, hupdated] at h
    cases h
  | some updated =>
    obtain ⟨recorded, hreloaded, hyields⟩ := Config.yields_record hstorage hloaded hcold hupdated
    refine ⟨updated, recorded, _, rfl, hreloaded, (hyields _ hfile).2, ?_⟩
    exact state_recordPlan config origin plan w

omit [Storage σ] [Crypto κ] [Card δ] in
theorem parse_eq_ok {firm : Firm}
    (h : ((World.onIntake Intake.parse : Run Event BootFailure (World σ κ δ) Firm) w).result =
      .ok firm) :
    Firm.parse w.intake.buffer = .ok firm ∧
      ((World.onIntake Intake.parse : Run Event BootFailure (World σ κ δ) Firm) w).state = w := by
  have hparse : (Intake.parse : Run Event BootFailure (Intake σ κ) Firm) w.intake =
      ⟨((Firm.parse w.intake.buffer).mapError .format).mapError .failed, w.intake, []⟩ :=
    Run.ofExcept_apply _ _
  unfold World.onIntake Run.onPart at h ⊢
  rw [hparse] at h ⊢
  exact ⟨Run.eq_ok_of_mapError (Run.eq_ok_of_mapError h), rfl⟩

omit [Storage σ] [Crypto κ] [Card δ] in
theorem onFirm_eq_ok {firm : Firm} {edit : FirmEdit α} {a : α}
    (h : (World.onFirm firm edit w : Outcome Event BootFailure (World σ κ δ) α).result = .ok a) :
    (edit firm).result = .ok a ∧
      (World.onFirm firm edit w : Outcome Event BootFailure (World σ κ δ) α).state =
        { w with intake := { w.intake with buffer := (edit firm).state.bytes } } := by
  have hmapped : (edit firm).result.mapError (Stop.map BootFailure.patch) = .ok a := h
  exact ⟨Run.eq_ok_of_mapError hmapped, rfl⟩

omit [Storage σ] [Crypto κ] [Card δ] in
/-- A boot that patched the system firmware reports the configuration of its kit. -/
theorem patchLoaded_eq_ok {kit : PatchKit} {rebuilt : Option (Section × Bytes)}
    (hnative : plan.title = .native)
    (h : (patchLoaded plan kit w : Outcome Event BootFailure _ _).result = .ok rebuilt) :
    ∃ report : KernelReport, ∃ patched, report.Of kit w.intake.buffer patched ∧
      (patchLoaded plan kit w : Outcome Event BootFailure _ _).state =
        { w with intake := { w.intake with buffer := patched } } := by
  unfold patchLoaded at h ⊢
  obtain ⟨firm, hparse, h, hstate⟩ := Run.state_of_bind_ok h
  obtain ⟨hfirm, hsame⟩ := parse_eq_ok hparse
  rw [hstate]
  rw [hsame] at h ⊢
  obtain ⟨modules, hpatched, -, hstate⟩ := Run.state_of_bind_ok h
  obtain ⟨happlied, hbuffer⟩ := onFirm_eq_ok hpatched
  rw [hstate]
  have happly : PatchSet.apply plan kit = PatchSet.System.patch plan kit >>= (pure ∘ some) := by
    rw [PatchSet.apply, hnative]
    rfl
  rw [happly] at happlied
  obtain ⟨sections, hpatch, -, hlast⟩ := Run.state_of_bind_ok happlied
  obtain ⟨middle, entry, hmiddle, hentry, hkernel, hsection⟩ :=
    PatchSet.System.patch_eq_ok (Firm.sectionsFit_of_parse hfirm) hpatch
  obtain ⟨kernel, arena, patch, hlocate, harena, hmakes⟩ :=
    PatchSet.System.patchKernel_eq_ok hkernel
  rw [← hsection] at hmakes
  refine ⟨⟨entry, kernel, arena, patch⟩, (PatchSet.System.patch plan kit firm).state.bytes,
    ⟨firm, middle, hfirm, hentry, hmiddle, hlocate, harena, hmakes⟩, ?_⟩
  change (World.onFirm firm (PatchSet.apply plan kit) w).state = _
  rw [hbuffer, happly, hlast]
  rfl

omit [Storage σ] [Crypto κ] [Card δ] in
theorem handOver_eq_ok {rebuilt : Option (Section × Bytes)}
    (h : (handOver plan rebuilt w : Outcome Event BootFailure _ _).result = .ok ()) :
    (handOver plan rebuilt w : Outcome Event BootFailure _ _).state.intake = w.intake := by
  unfold handOver at h ⊢
  obtain ⟨⟨⟩, -, h, hplaced⟩ := Run.state_of_bind_ok h
  obtain ⟨firm, hparse, h, hparsed⟩ := Run.state_of_bind_ok h
  obtain ⟨⟨⟩, -, h, hprepared⟩ := Run.state_of_bind_ok h
  rw [hplaced, hparsed, hprepared]
  change ((World.onIntake Intake.parse : Run Event BootFailure (World σ κ δ) Firm)
    _).state.intake = _
  rw [(parse_eq_ok hparse).2]
  rfl

theorem attempt_of_jumped {payloads : Payloads} (h : (run payloads w).1 = .jumped) :
    (attempt payloads w : Outcome Event BootFailure _ _).result = .ok () := by
  cases hresult : (attempt payloads w : Outcome Event BootFailure _ _).result with
  | ok _ => rfl
  | error stop =>
    cases stop with
    | failed err =>
      rw [run_of_failed hresult] at h
      obtain ⟨-, ⟨hok, -⟩ | ⟨hstuck, -⟩⟩ :=
        drawFailure_spec err (attempt payloads w : Outcome Event BootFailure _ _).state.machine
      · rw [hok] at h
        cases h
      · rw [hstuck] at h
        cases h
    | outOfRange =>
      rw [run_of_stopped hresult nofun] at h
      cases h
    | stuck =>
      rw [run_of_stopped hresult nofun] at h
      cases h

/-! ## Reported and recorded -/

/-- What a cold boot told the system firmware of its configuration, and what it left in the file,
when `file` was there before and `updated` is the configuration with the boot's choices recorded. -/
structure Reported (holds : Option Bytes → σ → Prop) (payloads : Payloads) (file : Option Bytes)
    (found : Fetched) (updated : Config) (loaded : Bytes) (final : Intake σ κ) : Prop where
  /-- The configuration of the boot is that of the file. -/
  config : Config.loadedFrom file = (found.config, found.origin)
  recording :
    found.config.recording? found.plan.nand found.plan.source found.plan.title = some updated
  recorded : ∃ recorded, Config.loadedFrom recorded = (updated, .stored) ∧
    holds recorded final.storage
  /-- The kernel reports the configuration from before the record. -/
  reported : ∃ report : KernelReport, ∃ developmentUnit,
    report.Of (found.kit payloads developmentUnit) loaded final.buffer ∧
      (report.patch.KeepsConfig report.kernel →
        report.word final.buffer = found.config.word ∧
          (report.word final.buffer = updated.word ↔ updated = found.config))

theorem prepare_eq_ok (hstorage : Storage.ReadsKeep σ Config.path holds)
    (hfile : holds file w.intake.storage) {payloads : Payloads} {found : Fetched}
    {prepared : Plan × Option (Section × Bytes)}
    (h : (prepare payloads w : Outcome Event BootFailure _ _).result = .ok prepared)
    (hfound : (fetch w : Outcome Event BootFailure _ _).result = .ok found)
    (hcold : found.plan.kind = .cold) (hnative : found.plan.title = .native) :
    ∃ updated, Reported holds payloads file found updated
      (fetch w : Outcome Event BootFailure _ _).state.intake.buffer
      (prepare payloads w : Outcome Event BootFailure _ _).state.intake := by
  unfold prepare at h ⊢
  obtain ⟨found', hfound', h, hfetched⟩ := Run.state_of_bind_ok h
  obtain rfl : found' = found := Except.ok.inj (hfound'.symm.trans hfound)
  obtain ⟨hconfig, hheld⟩ := fetch_keeps hstorage hfile hfound
  rw [hfetched]
  generalize (fetch w : Outcome Event BootFailure _ _).state = fetched at hheld h ⊢
  obtain ⟨⟨⟩, hrecord, h, hrecorded⟩ := Run.state_of_bind_ok h
  obtain ⟨updated, recorded, storage, hupdated, hreloaded, hwritten, hstored⟩ :=
    recordPlan_eq_ok hstorage.toReliable hheld hconfig hcold hrecord
  rw [hrecorded]
  rw [hstored, Run.bind_of_eq_ok (m := get) rfl] at h ⊢
  obtain ⟨made, hpatched, -, hpatching⟩ := Run.state_of_bind_ok h
  obtain ⟨report, patched, hreport, hfilled⟩ := patchLoaded_eq_ok hnative hpatched
  rw [hpatching, hfilled]
  refine ⟨updated, ?_⟩
  constructor
  case config => exact hconfig
  case recording => exact hupdated
  case recorded => exact ⟨recorded, hreloaded, hwritten⟩
  case reported =>
    refine ⟨report, _, hreport, fun hkeeps => ?_⟩
    change report.word patched = _ ∧ (report.word patched = _ ↔ _)
    rw [hreport.word_eq hkeeps]
    refine ⟨rfl, fun hsame => ?_, fun hsame => hsame ▸ rfl⟩
    exact congrArg Config.mk hsame.symm

/-- A cold boot of the system firmware that jumps reports the configuration word of the file as it
was, while the file is left with the word of this boot. The two are the same only where the boot
chose what was recorded before. -/
theorem report_precedes_record (hstorage : Storage.ReadsKeep σ Config.path holds)
    (hfile : holds file w.intake.storage) {payloads : Payloads} {found : Fetched}
    (hjumped : (run payloads w).1 = .jumped)
    (hfound : (fetch w : Outcome Event BootFailure _ _).result = .ok found)
    (hcold : found.plan.kind = .cold) (hnative : found.plan.title = .native) :
    ∃ updated, Reported holds payloads file found updated
      (fetch w : Outcome Event BootFailure _ _).state.intake.buffer
      (run payloads w).2.1.intake := by
  have hattempt := attempt_of_jumped hjumped
  rw [run_of_jumped hattempt]
  obtain ⟨⟨plan, rebuilt⟩, hprepare, hhanded, hattempted⟩ := Run.state_of_bind_ok hattempt
  have hprepared := prepare_eq_ok hstorage hfile hprepare hfound hcold hnative
  rw [← handOver_eq_ok hhanded] at hprepared
  change (attempt payloads w).state = (handOver plan rebuilt _).state at hattempted
  rw [hattempted]
  exact hprepared

end Boot

namespace BareFirmware

/-- The block lies in front of the table of service calls. -/
theorem keepsConfig {padding patched : Bytes} (hpadding : padding.size = 0x14DFC)
    {report : KernelReport} {developmentUnit : Bool}
    (h : report.Of (found.kit payloads developmentUnit) (image padding) patched) :
    report.patch.KeepsConfig report.kernel := by
  obtain ⟨second, hsecond⟩ := @kernel_lies padding
  obtain ⟨third, hthird⟩ := @arm9_lies padding
  have hstop := hsecond.stop
  have hstart := hthird.start
  obtain ⟨hlocate, harena, hmakes⟩ :=
    h.made (parse_image hpadding) hthird.entry hsecond.entry (.inr (by omega))
  rw [hsecond.payload, extract_kernel] at hlocate harena hmakes
  rw [kernel_found.1] at hlocate
  rw [← Except.ok.inj hlocate] at harena hmakes ⊢
  rw [kernel_found.2.1] at harena
  rw [← Except.ok.inj harena] at hmakes
  have hoff : config.isOn .liftAccess = false := by decide
  have hoffset : report.patch.offset = 0 := Option.some.inj (hmakes.block.symm.trans block_payloads)
  have hslot : Kernel.slot ⟨0, 0x34, 0x34⟩ ServiceCall.Info.number = 0xEC := rfl
  have hfront : report.patch.pos ≤ 0x68 := by
    rcases hmakes.front with ⟨-, hpos⟩ | ⟨-, hpos⟩
    all_goals
      rw [hpos]
      decide
  refine hmakes.keepsConfig hoff (.inr ?_)
  rw [hslot, KernelPatch.configPos, hoffset]
  omega

/-- After a recovery boot the built-in NAND is booted as usual: programs are told of the recovery
boot, which the file no longer records. -/
theorem report_precedes_record_recovered :
    (Boot.run payloads (console filler)).1 = .jumped ∧
      ∃ updated report developmentUnit,
        Boot.Reported (FileStore.Holds Config.path) payloads (some config.encode) found updated
          (image filler) (Boot.run payloads (console filler)).2.1.intake ∧
        KernelReport.Of report (found.kit payloads developmentUnit) (image filler)
          (Boot.run payloads (console filler)).2.1.intake.buffer ∧
        report.word (Boot.run payloads (console filler)).2.1.intake.buffer = 0x00100100 ∧
        updated.word = 0x00100000 := by
  have hpadding : filler.size = 0x14DFC := Array.size_replicate
  -- Nothing else is known of the padding, which is too long to be looked at byte by byte.
  generalize filler = padding at hpadding ⊢
  have hjumped := jumps hpadding
  obtain ⟨hfound, hfetched⟩ := yields_fetch_console hpadding _ rfl
  obtain ⟨updated, hreported⟩ := Boot.report_precedes_record (FileStore.readsKeep Config.path)
    holds_console hjumped hfound rfl rfl
  rw [hfetched] at hreported
  obtain ⟨report, developmentUnit, hof, hword⟩ := hreported.reported
  have hupdated : updated = ⟨0x00100000⟩ :=
    Option.some.inj (hreported.recording.symm.trans (by decide +kernel))
  have hkeeps := keepsConfig hpadding hof
  exact ⟨hjumped, updated, report, developmentUnit, hreported, hof, (hword hkeeps).1,
    congrArg Config.word hupdated⟩

end BareFirmware
end BootStage
