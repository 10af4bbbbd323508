import BootStage.Proofs.BareFirmware
import BootStage.Proofs.BootEndings
import BootStage.Proofs.HandedOver
import BootStage.Proofs.StoredConfig
/-!
# Boots that jump

A boot whose firmware was fetched goes on to its jump when the patch set applies: its record cannot
stop it, and the hand-over runs to its end where no payload lies over the header or is loaded over
the cell of operations.
-/

namespace BootStage

namespace Section

variable {s : Section}

/-- Loaded, the payload ends below the cell of operations. -/
def LoadsLow (s : Section) : Prop :=
  s.address.toNat + s.size.toNat ≤ Cell.operation.toNat

instance (s : Section) : Decidable s.LoadsLow :=
  inferInstanceAs (Decidable (_ ≤ _))

theorem LoadsLow.belowTop (h : s.LoadsLow) : s.BelowTop := by
  have hcell : Cell.operation.toNat = 0x1FFFFFF0 := rfl
  unfold LoadsLow at h
  unfold BelowTop
  omega

theorem LoadsLow.clear (h : s.LoadsLow) {a : UInt32} (ha : s.Loads a) :
    ¬Cell.Spans Cell.operation a := by
  have hcell : Cell.operation.toNat = 0x1FFFFFF0 := rfl
  unfold LoadsLow at h
  unfold Loads at ha
  rw [Cell.spans_iff (by omega)]
  omega

end Section

namespace World

variable {σ κ δ ε α : Type}

theorem onIntake_apply (m : Run Event ε (Intake σ κ) α) (w : World σ κ δ) :
    onIntake m w =
      ⟨(m w.intake).result, { w with intake := (m w.intake).state }, (m w.intake).events⟩ :=
  rfl

theorem onStorage_apply (m : Run Event ε σ α) (w : World σ κ δ) :
    onStorage m w =
      ⟨(m w.intake.storage).result,
        { w with intake := { w.intake with storage := (m w.intake.storage).state } },
        (m w.intake.storage).events⟩ :=
  rfl

end World

/-! ## The hand-over -/

theorem Machine.isReady_copy {m : Machine} (h : m.isReady) {address : UInt32} {data : Bytes}
    (hlow : address.toNat + data.size ≤ Cell.operation.toNat) :
    (m.copy address data).isReady := by
  have hcell : Cell.operation.toNat = 0x1FFFFFF0 := rfl
  rw [Machine.isReady_iff] at h ⊢
  rw [← h]
  refine Memory.word_congr fun a ha => ?_
  rw [Cell.spans_iff (by omega)] at ha
  have haddress := address.toNat_lt
  have hbound := a.toNat_lt
  show (m.memory.lay address data).byte a = _
  rw [Memory.byte_lay, if_neg]
  rw [UInt32.toNat_sub]
  omega

theorem PatchSet.apply_congr {plan plan' : Plan} {kit : PatchKit}
    (htitle : plan'.title = plan.title) (hguard : plan'.guard = plan.guard)
    (hmodel : plan'.model = plan.model) (hgba : plan'.showsGbaScreen = plan.showsGbaScreen) :
    PatchSet.apply plan' kit = PatchSet.apply plan kit := by
  obtain ⟨_, title, _, _, _, _, _, _, _⟩ := plan
  obtain ⟨_, _, _, _, _, _, _, _, _⟩ := plan'
  cases htitle
  cases hguard
  cases hmodel
  cases hgba
  cases title <;> rfl

namespace Boot

variable {σ κ δ : Type} {w : World σ κ δ} {firm : Firm} {plan : Plan}

def PlacesLow (rebuilt : Option (Section × Bytes)) : Prop :=
  ∀ s modules, rebuilt = some (s, modules) →
    s.address.toNat + modules.size ≤ Cell.operation.toNat

theorem placeRebuilt_of_low {m : Machine} (hready : m.isReady)
    {rebuilt : Option (Section × Bytes)} (hlow : PlacesLow rebuilt) :
    ((placeRebuilt rebuilt) m).result = .ok () ∧ ((placeRebuilt rebuilt) m).state.isReady := by
  cases rebuilt with
  | none => exact ⟨rfl, hready⟩
  | some placed => exact ⟨rfl, Machine.isReady_copy hready (hlow placed.1 placed.2 rfl)⟩

theorem handOver_of_low (h : Firm.parse w.intake.buffer = .ok firm) (hready : w.machine.isReady)
    {rebuilt : Option (Section × Bytes)} (hrebuilt : PlacesLow rebuilt)
    (hlow : ∀ s ∈ HandOver.sections firm plan.title, s.LoadsLow) :
    (handOver plan rebuilt w : Outcome Event BootFailure _ _).result = .ok () := by
  obtain ⟨hplaced, hstill⟩ := placeRebuilt_of_low hready hrebuilt
  have hfirst : (World.onMachine (placeRebuilt rebuilt) w :
      Outcome Event BootFailure (World σ κ δ) Unit).result = .ok () := hplaced
  unfold handOver
  rw [Run.bind_of_ok hfirst]
  let placed : World σ κ δ := { w with machine := (placeRebuilt rebuilt w.machine).state }
  have hparse : (World.onIntake Intake.parse : Run Event BootFailure (World σ κ δ) Firm) placed =
      ⟨.ok firm, placed, []⟩ := World.onIntake_parse h
  change ((World.onIntake Intake.parse >>= fun firm => _ :
    Run Event BootFailure (World σ κ δ) Unit) placed).result = _
  rw [Run.bind_of_eq_ok hparse]
  exact (HandOver.launch_hands_over h plan hstill (fun s hs => (hlow s hs).belowTop)
    fun s hs _ ha => (hlow s hs).clear ha).1

/-! ## From the fetched firmware to the jump -/

theorem state_recordPlan [Storage σ] (config : Config) (origin : Config.Origin) (plan : Plan)
    (w : World σ κ δ) :
    (recordPlan config origin plan w : Outcome Event BootFailure _ _).state =
      { w with intake := { w.intake with
        storage := (Config.record config origin plan w.intake.storage).state } } := by
  unfold recordPlan
  rw [Run.bind_apply, Run.attempt, World.onStorage_apply]
  cases (Config.record config origin plan w.intake.storage).result with
  | ok _ => rfl
  | error stop => cases stop <;> rfl

/-- A boot goes on without its record, unless a choice does not fit its field. -/
theorem recordPlan_of_recordable [Storage σ] (config : Config) (origin : Config.Origin)
    (hplan : plan.Recordable) (w : World σ κ δ) :
    (recordPlan config origin plan w : Outcome Event BootFailure _ _).result = .ok () := by
  have hsafe := (Config.safe_record config origin hplan w.intake.storage True.intro).2
  unfold recordPlan
  rw [Run.bind_apply, Run.attempt, World.onStorage_apply]
  rcases hsafe.cases with ⟨updated, hok, -⟩ | ⟨err, herr⟩
  · rw [hok]
    rfl
  · rw [herr]
    rfl

def rebuiltOf (firm : Firm) (modules : Option Bytes) : Option (Section × Bytes) :=
  match firm.section? 0, modules with
  | some s, some modules => some (s, modules)
  | _, _ => none

theorem patchLoaded_of_applied (h : Firm.parse w.intake.buffer = .ok firm) {kit : PatchKit}
    {modules : Option Bytes} (hpatch : (PatchSet.apply plan kit firm).result = .ok modules) :
    (patchLoaded plan kit w : Outcome Event BootFailure _ _).result =
        .ok (rebuiltOf firm modules) ∧
      (patchLoaded plan kit w : Outcome Event BootFailure _ _).state.machine = w.machine := by
  have happlied : (World.onFirm firm (PatchSet.apply plan kit) w :
      Outcome Event BootFailure (World σ κ δ) _).result = .ok modules := by
    change (PatchSet.apply plan kit firm).result.mapError _ = _
    rw [hpatch]
    rfl
  unfold patchLoaded
  rw [Run.bind_of_eq_ok (World.onIntake_parse h), Run.bind_of_ok happlied]
  exact ⟨rfl, rfl⟩

/-- A boot whose firmware was fetched jumps, if the patch set applies to it and the hand-over can
neither lose its header nor its second core. -/
theorem jumps_of_applied [Storage σ] [Crypto κ] [Card δ] {payloads : Payloads} {found : Fetched}
    {fetched : World σ κ δ} {modules : Option Bytes}
    (hfound : (fetch w : Outcome Event BootFailure _ _).result = .ok found)
    (hfetched : (fetch w : Outcome Event BootFailure _ _).state = fetched)
    (hplan : found.plan.Recordable) (h : Firm.parse fetched.intake.buffer = .ok firm)
    (hoff : firm.PayloadsOffHeader)
    (hpatch : (PatchSet.apply found.plan
      (found.kit payloads fetched.machine.isDevelopmentUnit) firm).result = .ok modules)
    (hready : fetched.machine.isReady) (hplaced : PlacesLow (rebuiltOf firm modules))
    (hlow : ∀ s ∈ HandOver.sections firm found.plan.title, s.LoadsLow) :
    (run payloads w).1 = .jumped := by
  have hrecord := recordPlan_of_recordable found.config found.origin hplan fetched
  have hrecorded := state_recordPlan found.config found.origin found.plan fetched
  generalize hmiddle : (recordPlan found.config found.origin found.plan fetched :
    Outcome Event BootFailure _ _).state = middle at hrecorded
  have hbuffer : Firm.parse middle.intake.buffer = .ok firm := by
    rw [hrecorded]
    exact h
  have hmachine : middle.machine = fetched.machine := by rw [hrecorded]
  rw [← hmachine] at hpatch hready
  obtain ⟨hpatched, hkept⟩ := patchLoaded_of_applied hbuffer hpatch
  have hagain := parse_patchLoaded hbuffer hoff found.plan
    (found.kit payloads middle.machine.isDevelopmentUnit)
  have hhanded := handOver_of_low hagain (hkept.symm ▸ hready) hplaced hlow
  have hattempt : (attempt payloads w : Outcome Event BootFailure _ _).result = .ok () := by
    unfold attempt prepare
    rw [bind_assoc, Run.result_bind_of_ok hfound, hfetched, bind_assoc,
      Run.result_bind_of_ok hrecord, hmiddle, bind_assoc,
      Run.bind_of_eq_ok (m := get) rfl, bind_assoc, Run.result_bind_of_ok hpatched]
    exact hhanded
  rw [run_of_jumped hattempt]

/-! ## An installed firmware -/

/-- A console with a configuration file and one title, which is in the buffer already. -/
def installed (machine : Machine) (config : Config) (image : Bytes) (version : UInt32) :
    World FileStore XorCipher SectorImage where
  intake :=
    { storage := { FileStore.empty with titles := fun _ _ => some (image, version) }.setFile
        Config.path (some config.encode)
      crypto := .plain
      buffer := image }
  card := ⟨0x1D8000, fun _ => none⟩
  machine

variable {machine : Machine} {config : Config} {image : Bytes} {version : UInt32}

theorem holds_installed :
    FileStore.Holds Config.path (some config.encode)
      (installed machine config image version).intake.storage :=
  ⟨by simp [installed, FileStore.setFile], rfl, rfl⟩

theorem titleRead_installed (plan : Plan) :
    LoadedImage.titleRead plan (installed machine config image version).intake =
      ⟨.ok ⟨image.size, version⟩, image,
        (installed machine config image version).intake.storage⟩ := by
  have hsame := Bytes.overwrite_extract image 0 image.size
  rw [Array.extract_size] at hsame
  have hreceive : image.receive image = (.ok image.size, image) := by
    rw [Bytes.receive, if_neg (Nat.lt_irrefl _), hsame]
  have hread : LoadedImage.titleRead plan (installed machine config image version).intake =
      ⟨(image.receive image).1.map (⟨·, version⟩), (image.receive image).2,
        (installed machine config image version).intake.storage⟩ := rfl
  rw [hread, hreceive]
  rfl

theorem yields_readConfig_installed :
    Run.Yields (· = installed machine config image version)
      (· = installed machine config image version)
      (World.onStorage Config.load : Run Event BootFailure _ _) (config, .stored) := by
  rintro _ rfl
  have hloaded := (Config.yields_load (ε := BootFailure) (FileStore.reliable Config.path) _ _
    (@holds_installed machine config image version)).1
  rw [Config.loadedFrom_encode] at hloaded
  obtain ⟨result, notices, hload, -⟩ := Config.load_spec (ε := BootFailure)
    (installed machine config image version).intake.storage
  rw [FileStore.state_getFile] at hload
  rw [World.onStorage_apply, hloaded, hload]
  exact ⟨rfl, rfl⟩

/-- A plan that keeps to the built-in NAND of an Old console, without the splash. -/
structure KeepsBuiltIn (plan : Plan) : Prop where
  model : plan.model = .old
  splash : plan.splash = none
  nand : plan.nand = .sys
  source : plan.source = .sys

theorem yields_settle_builtIn {σ κ δ : Type} [Card δ] {inputs : Inputs} {plan : Plan}
    (h : Plan.ofInputs inputs = .ok plan) (hplan : KeepsBuiltIn plan) (w : World σ κ δ) :
    Run.Yields (· = w) (· = w) (settle inputs : Run Event BootFailure _ _) (plan, none) := by
  obtain ⟨-, hsplash, hnand, hsource⟩ := hplan
  rintro _ rfl
  rw [settle_of_ok h, drawSplash, CardImage.resolve, hsplash, hnand, hsource]
  exact ⟨rfl, rfl⟩

theorem yields_fetch_installed {plan : Plan} (h : Firm.parse image = .ok firm)
    (hdecided : Plan.ofInputs (machine.inputs config) = .ok plan) (hplan : KeepsBuiltIn plan)
    (hcard : config.isOn .loadExternal = false) :
    Run.Yields (· = installed machine config image version)
      (· = installed machine config image version)
      (fetch : Run Event BootFailure _ _) ⟨config, .stored, plan, none, ⟨.nand, some version⟩⟩ := by
  have hload : Run.Yields (· = installed machine config image version)
      (· = installed machine config image version)
      (World.onIntake (LoadedImage.load plan (config.isOn .loadExternal)) :
        Run Event BootFailure _ _) ⟨.nand, some version⟩ := by
    rintro _ rfl
    obtain ⟨hloaded, hstate⟩ := LoadedImage.load_plain hplan.model
      (@titleRead_installed machine config image version _) rfl h
    rw [hcard, World.onIntake_apply, hloaded, hstate]
    exact ⟨rfl, rfl⟩
  refine yields_readConfig_installed.bind (Run.Yields.get.bind ?_)
  exact (yields_settle_builtIn hdecided hplan _).bind (hload.bind .pure)

end Boot

/-! ## A firmware that is booted -/

namespace BareFirmware

variable {machine : Machine} {plan : Plan} {padding : Bytes}

/-- A console with the firmware as its built-in one. -/
def consoleOn (machine : Machine) (padding : Bytes) : World FileStore XorCipher SectorImage :=
  Boot.installed machine config (image padding) 0

def console (padding : Bytes) : World FileStore XorCipher SectorImage :=
  consoleOn .idle padding

theorem consoleOn_same (machine machine' : Machine) (padding : Bytes) :
    (consoleOn machine' padding).intake = (consoleOn machine padding).intake ∧
      (consoleOn machine' padding).card = (consoleOn machine padding).card :=
  ⟨rfl, rfl⟩

theorem holds_console : FileStore.Holds Config.path (some config.encode)
    (console padding).intake.storage :=
  Boot.holds_installed

theorem yields_fetch (hpadding : padding.size = 0x14DFC)
    (hdecided : Plan.ofInputs (machine.inputs config) = .ok plan)
    (hplan : Boot.KeepsBuiltIn plan) :
    Run.Yields (· = consoleOn machine padding) (· = consoleOn machine padding)
      (Boot.fetch : Run Event BootFailure _ _) (foundBy plan) :=
  Boot.yields_fetch_installed (parse_image hpadding) hdecided hplan (by decide)

theorem loadsLow : ∀ s ∈ (ContainerHeader.read header).sectionList, s.LoadsLow := by
  decide +kernel

/-- A boot of the system firmware jumps if its plan keeps to the built-in NAND and guards
nothing. -/
theorem jumps_of_plan (hpadding : padding.size = 0x14DFC) (hready : machine.isReady)
    (hunit : machine.isDevelopmentUnit = Machine.idle.isDevelopmentUnit)
    (hdecided : Plan.ofInputs (machine.inputs config) = .ok plan)
    (hplan : Boot.KeepsBuiltIn plan) (htitle : plan.title = .native)
    (hguard : plan.guard = .off) (hgba : plan.showsGbaScreen = false) :
    (Boot.run payloads (consoleOn machine padding)).1 = .jumped := by
  obtain ⟨hfound, hfetched⟩ := yields_fetch hpadding hdecided hplan _ rfl
  have happlied : (PatchSet.apply plan ((foundBy plan).kit payloads machine.isDevelopmentUnit)
      (firm padding)).result = .ok (some (modules.splice 0 0x200 #[])) := by
    have hsame : PatchSet.apply plan kit = PatchSet.apply found.plan kit :=
      PatchSet.apply_congr htitle hguard hplan.model hgba
    rw [hunit]
    change (PatchSet.apply plan kit (firm padding)).result = _
    rw [hsame]
    exact apply_firm hpadding
  have hrecordable : plan.Recordable := by
    rw [Plan.Recordable, hplan.nand, hplan.source]
    exact ⟨Plan.sys_fits, Plan.sys_fits⟩
  refine Boot.jumps_of_applied hfound hfetched hrecordable (parse_image hpadding) ?_ happlied
    hready ?_ ?_
  · exact Firm.payloadsOffHeader_of_behind layout.1
  · obtain ⟨first, hfirst⟩ := @modules_lies padding
    have hlow := loadsLow first (ContainerHeader.mem_sectionList.2
      ((ContainerHeader.index_of_section? hfirst.entry).symm ▸ hfirst.entry))
    intro s rebuilt h
    unfold Boot.rebuiltOf at h
    rw [hfirst.entry] at h
    obtain ⟨rfl, rfl⟩ := Prod.mk.inj (Option.some.inj h)
    -- The loader that goes in is empty, so what is placed is shorter than the section.
    have hstart := hfirst.start
    have hstop := hfirst.stop
    rw [Bytes.size_splice _ _ _ _ (by rw [size_modules]; decide), size_modules]
    unfold Section.LoadsLow at hlow
    unfold Section.stop at hstop
    change first.address.toNat + (0x21C - 0x200 + 0) ≤ _
    omega
  · exact fun s hs => loadsLow s (List.mem_filter.1 hs).1

theorem decided_idle :
    Plan.ofInputs (Machine.idle.inputs config) = .ok (LoadedImage.builtInPlan .old) :=
  Run.eq_ok_of_toOption (by decide)

theorem keepsBuiltIn_builtInPlan : Boot.KeepsBuiltIn (LoadedImage.builtInPlan .old) :=
  ⟨rfl, rfl, rfl, rfl⟩

theorem yields_fetch_console (hpadding : padding.size = 0x14DFC) :
    Run.Yields (· = console padding) (· = console padding)
      (Boot.fetch : Run Event BootFailure _ _) found :=
  yields_fetch hpadding decided_idle keepsBuiltIn_builtInPlan

theorem jumps (hpadding : padding.size = 0x14DFC) :
    (Boot.run payloads (console padding)).1 = .jumped :=
  jumps_of_plan hpadding (by decide) rfl decided_idle keepsBuiltIn_builtInPlan rfl rfl rfl

end BareFirmware
end BootStage
