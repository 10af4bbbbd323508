import BootStage.Proofs.CardSearch
import BootStage.Proofs.StoredConfig
/-!
# Relaunches

A cold boot records the NANDs it came to, after the images on the card were searched. A relaunch
decides on what was recorded, and so comes to the same NANDs and the same image.
-/

namespace BootStage

/-- A relaunch that decides goes by the record of the configuration. -/
theorem Plan.relaunching_of_ofInputs {inputs : Inputs} {plan : Plan}
    (h : ofInputs inputs = .ok plan) (hflag : inputs.launchFlag ≠ 0) :
    plan.model = inputs.model ∧ plan.nand = inputs.config.recordedNand ∧
      plan.source = inputs.config.recordedSource := by
  rw [ofInputs, if_neg hflag] at h
  split at h
  · obtain rfl := Except.ok.inj h
    exact ⟨rfl, rfl, rfl⟩
  · cases h

/-- NANDs that fit their fields are read back from the record made of them. -/
theorem Config.recordedNands_of_recording? {config updated : Config} {nand source : Nand}
    {title : Title} (h : config.recording? nand source title = some updated)
    (hnand : nand.Fits) (hsource : source.Fits) :
    updated.recordedNand = nand ∧ updated.recordedSource = source := by
  obtain ⟨hused, hread⟩ := recorded_of_recording? h
  constructor
  · rw [recordedNand, hused, hnand.nandOf_codeOf]
  · rw [recordedSource, hread, hsource.nandOf_codeOf]

/-- A relaunch with the record of a settled plan is settled like that plan. -/
theorem CardImage.resolveOn_relaunch {image : SectorImage} {plan next : Plan} {again : Inputs}
    {config : Config} {title : Title}
    (hfits : (resolveOn image plan).1.Recordable)
    (hrecord : config.recording? (resolveOn image plan).1.nand (resolveOn image plan).1.source
      title = some again.config)
    (hmodel : again.model = plan.model) (hflag : again.launchFlag ≠ 0)
    (hnext : Plan.ofInputs again = .ok next) :
    (resolveOn image next).1.nand = (resolveOn image plan).1.nand ∧
      (resolveOn image next).1.source = (resolveOn image plan).1.source ∧
      (resolveOn image next).2 = (resolveOn image plan).2 := by
  obtain ⟨hnand, hsource⟩ := Config.recordedNands_of_recording? hrecord hfits.1 hfits.2
  obtain ⟨hsame, hnextNand, hnextSource⟩ := Plan.relaunching_of_ofInputs hnext hflag
  apply resolveOn_again
  · exact hsame.trans hmodel
  · exact hnextNand.trans hnand
  · exact hnextSource.trans hsource

namespace Boot

variable {σ δ : Type} [Storage σ] [Card δ]

/-- A cold boot that finds any configuration file or none, with any buttons held, is settled,
and its record can be made and is what is loaded afterwards. A relaunch with that record, if it
decides at all, is settled on the same NANDs and the same image. -/
theorem relaunch_repeats {holds : Option Bytes → σ → Prop} {image : SectorImage}
    {good : δ → Prop} (hstorage : Storage.Reliable Config.path holds)
    (hcard : Card.ReadsAs image good) (file : Option Bytes) {inputs : Inputs}
    (hcold : inputs.launchFlag = 0) :
    ∃ config origin plan settled location updated recorded,
      Run.Yields (holds file) (holds file) (Config.load : Run Event BootFailure σ _)
        (config, origin) ∧
      Plan.ofInputs { inputs with config } = .ok plan ∧
      Run.Yields good good (CardImage.resolve plan : Run Event BootFailure δ _)
        (settled, location) ∧
      Run.Yields (holds file) (holds recorded) (Config.record config origin settled) updated ∧
      Run.Yields (holds recorded) (holds recorded) (Config.load : Run Event BootFailure σ _)
        (updated, .stored) ∧
      ∀ (again : Inputs) (next : Plan), again.launchFlag ≠ 0 → again.model = inputs.model →
        again.config = updated → Plan.ofInputs again = .ok next →
          ∃ resettled,
            Run.Yields good good (CardImage.resolve next : Run Event BootFailure δ _)
              (resettled, location) ∧
            resettled.nand = settled.nand ∧ resettled.source = settled.source := by
  obtain ⟨config, origin, hloaded⟩ : ∃ config origin, Config.loadedFrom file = (config, origin) :=
    ⟨_, _, rfl⟩
  let plan := Plan.starting { inputs with config }
  have hplan : Plan.ofInputs { inputs with config } = .ok plan := if_pos hcold
  have hload := Config.yields_load (ε := BootFailure) hstorage file
  rw [hloaded] at hload
  have hresolve := CardImage.yields_resolve (ε := BootFailure) hcard plan
  -- What the search came to can be recorded, whichever image it fell back to.
  obtain ⟨hfits, hkind⟩ :=
    CardImage.recordable_resolveOn image (Plan.recordable_of_ofInputs hplan)
  obtain ⟨updated, hupdated⟩ := Option.isSome_iff_exists.1 <|
    config.recording?_isSome (CardImage.resolveOn image plan).1.title hfits.1 hfits.2
  obtain ⟨recorded, hreload, hrecord⟩ := Config.yields_record hstorage hloaded hkind hupdated
  have hreloaded := Config.yields_load (ε := BootFailure) hstorage recorded
  rw [hreload] at hreloaded
  refine ⟨config, origin, plan, (CardImage.resolveOn image plan).1,
    (CardImage.resolveOn image plan).2, updated, recorded, hload, hplan, hresolve, hrecord,
    hreloaded, ?_⟩
  intro again next hflag hmodel hconfig hnext
  subst hconfig
  obtain ⟨hnand, hsource, hlocation⟩ :=
    CardImage.resolveOn_relaunch hfits hupdated hmodel hflag hnext
  have hresettled := CardImage.yields_resolve (ε := BootFailure) hcard next
  refine ⟨(CardImage.resolveOn image next).1, ?_, hnand, hsource⟩
  rw [← hlocation]
  exact hresettled

/-- A card whose sectors all are NAND headers, and whose partition starts behind any image. -/
def headersOnly : SectorImage where
  builtInSectors := 0x1D8000
  sectors := fun _ =>
    some ⟨Bytes.overwrite (Array.replicate 0x200 0xFF) CardImage.magicPos CardImage.magic,
      (Bytes.size_overwrite _ _ _).trans Array.size_replicate⟩

def idleInputs (launchFlag : UInt8) (config : Config) : Inputs :=
  ⟨launchFlag, 0, .none, .old, false, config⟩

/-- Without a file the first image is booted, and booted again by a relaunch. -/
theorem relaunch_repeats_first :
    ∃ updated recorded next resettled,
      Run.Yields (FileStore.Holds Config.path recorded) (FileStore.Holds Config.path recorded)
        (Config.load : Run Event BootFailure FileStore _) (updated, .stored) ∧
      Plan.ofInputs (idleInputs Plan.digitZero updated) = .ok next ∧
      Run.Yields (· = headersOnly) (· = headersOnly)
        (CardImage.resolve next : Run Event BootFailure SectorImage _)
        (resettled, some ⟨1, 1, 1⟩) ∧
      resettled.nand = .emu 1 := by
  have hempty : FileStore.Holds Config.path none FileStore.empty := ⟨rfl, rfl, rfl⟩
  obtain ⟨config, origin, plan, settled, location, updated, recorded, hload, hplan, hresolve, -,
    hreloaded, hagain⟩ := relaunch_repeats (FileStore.reliable Config.path)
      (SectorImage.readsAs headersOnly) none (rfl : (idleInputs 0 .empty).launchFlag = 0)
  have hloaded : (.ok (.empty, .defaulted) : Except (Stop BootFailure) _) =
      .ok (config, origin) := (hload FileStore.empty hempty).1
  obtain ⟨rfl, rfl⟩ := Prod.mk.inj (Except.ok.inj hloaded)
  have hstarting : Plan.starting (idleInputs 0 .empty) = plan := Except.ok.inj hplan
  subst hstarting
  have hfound : CardImage.resolveOn headersOnly (Plan.starting (idleInputs 0 .empty)) =
      (Plan.starting (idleInputs 0 .empty), some ⟨1, 1, 1⟩) := by
    decide +kernel
  have hsettles := CardImage.yields_resolve (ε := BootFailure) (SectorImage.readsAs headersOnly)
    (Plan.starting (idleInputs 0 .empty)) headersOnly rfl
  have hsettled := hsettles.1.symm.trans (hresolve headersOnly rfl).1
  rw [hfound] at hsettled
  obtain ⟨rfl, rfl⟩ := Prod.mk.inj (Except.ok.inj hsettled)
  have hflag : Plan.digitZero ≠ 0 := by decide
  have hrequested : Plan.requested? Plan.digitZero 0 = some .native := by decide
  have hnext : Plan.ofInputs (idleInputs Plan.digitZero updated) =
      .ok (Plan.relaunching (idleInputs Plan.digitZero updated) .native) := by
    unfold Plan.ofInputs idleInputs
    dsimp only
    rw [if_neg hflag, hrequested]
  obtain ⟨resettled, hresettled, hnand, -⟩ :=
    hagain (idleInputs Plan.digitZero updated) _ hflag rfl rfl hnext
  exact ⟨updated, recorded, _, resettled, hreloaded, hnext, hresettled, hnand⟩

end Boot
end BootStage
