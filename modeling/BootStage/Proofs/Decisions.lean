import BootStage.Proofs.Slots
/-!
# What a decision says

The launch flag tells a cold boot from a relaunch, and refuses a relaunch into no firmware. A cold
boot goes by its buttons and options, and names two NANDs only while R is held; a relaunch goes by
what was recorded, and by nothing that is held or shown now.
-/

namespace BootStage

/-- The fields of the configuration that a relaunch goes by. -/
def Config.Field.OfRelaunch (field : Config.Field) : Prop :=
  field ∈ [.nandUsed, .sourceUsed, .installed, .showsGbaScreen]

instance (field : Config.Field) : Decidable field.OfRelaunch :=
  inferInstanceAs (Decidable (_ ∈ _))

namespace Inputs

/-- A relaunch is asked for, but neither the marker nor the flag names a firmware. -/
def NameNone (inputs : Inputs) : Prop :=
  inputs.launchFlag ≠ 0 ∧ inputs.gbaMarker ≠ 0x33 ∧
    ¬(0x30 ≤ inputs.launchFlag ∧ inputs.launchFlag ≤ 0x33)

/-- The inputs ask the same console for the same firmware, and agree on the fields of the
configuration that a relaunch goes by. -/
structure SameRequest (inputs inputs' : Inputs) : Prop where
  launchFlag : inputs'.launchFlag = inputs.launchFlag
  gbaMarker : inputs'.gbaMarker = inputs.gbaMarker
  model : inputs'.model = inputs.model
  fields : ∀ field : Config.Field, field.OfRelaunch →
    inputs'.config.get field = inputs.config.get field

end Inputs

namespace Plan

variable {inputs inputs' : Inputs} {plan : Plan}

/-- `plan` is what a cold boot may decide on `inputs`. -/
structure DecidedCold (inputs : Inputs) (plan : Plan) : Prop where
  kind : plan.kind = .cold
  launched : plan.launched = none
  recovery : plan.title = .safe ∧ plan.guard = .forced ∧ plan.nand = .sys ∧ plan.source = .sys ↔
    inputs.buttons = .recovery
  otherwise : inputs.buttons ≠ .recovery → plan.title = .native
  slots : ∀ slot, plan.nand = .emu slot ∨ plan.source = .emu slot → 1 ≤ slot ∧ slot ≤ 4
  oneSlot : ∀ slot slot', plan.nand = .emu slot → plan.source = .emu slot' → slot = slot'
  mixed : plan.nand ≠ plan.source → inputs.buttons.holds .r

/-- `plan` is what a relaunch may decide. -/
structure DecidedWarm (plan : Plan) : Prop where
  kind : plan.kind = .relaunch
  splash : plan.splash = none
  launched : plan.launched = some plan.title.idLow
  slots : ∀ slot, plan.nand = .emu slot ∨ plan.source = .emu slot → 1 ≤ slot ∧ slot ≤ 7

/-! ## Refusals -/

theorem requested?_eq_none_iff (flag gbaMarker : UInt8) :
    requested? flag gbaMarker = none ↔
      gbaMarker ≠ 0x33 ∧ ¬(0x30 ≤ flag ∧ flag ≤ 0x33) := by
  have hmarker : digitZero + 3 = 0x33 := rfl
  have hzero : digitZero.toNat = 0x30 := rfl
  have hrange : 0x30 ≤ flag ∧ flag ≤ 0x33 ↔ (flag - digitZero).toNat ≤ 3 := by
    have hflag := flag.toNat_lt
    rw [UInt8.le_iff_toNat_le, UInt8.le_iff_toNat_le, UInt8.toNat_sub, hzero]
    simp only [UInt8.reduceToNat]
    omega
  rw [hrange, requested?, hmarker]
  split
  · next hgba => simp [hgba]
  · next hgba =>
    split
    case h_5 hnative htwl hagb hsafe =>
      refine iff_of_true rfl ⟨hgba, fun hdigit => ?_⟩
      have hsmall : ∀ n, n ≤ 3 → n = 0 ∨ n = 1 ∨ n = 2 ∨ n = 3 := by omega
      rcases hsmall _ hdigit with h | h | h | h
      · exact hnative h
      · exact htwl h
      · exact hagb h
      · exact hsafe h
    all_goals next hdigit => simp [hdigit]

theorem ofInputs_eq_error_iff (inputs : Inputs) (err : BootFailure) :
    ofInputs inputs = .error err ↔
      inputs.NameNone ∧ err = .unknownTitle inputs.launchFlag := by
  rw [Inputs.NameNone, ← requested?_eq_none_iff]
  unfold ofInputs
  split
  · next hcold => simp [hcold]
  · next hwarm =>
    split
    · next title htitle => simp [htitle]
    · next hnone => simp [hnone, hwarm, eq_comm]

/-! ## Cold boots -/

/-- The only image that a cold boot names is that of the slot held. -/
theorem slot_of_coldNands {buttons : Buttons} {config : Config} {slot : Nat}
    (h : (coldNands buttons config).1 = .emu slot ∨ (coldNands buttons config).2 = .emu slot) :
    slot = heldSlot buttons config := by
  unfold coldNands at h
  dsimp only at h
  repeat' split at h
  all_goals simp_all

theorem holds_of_coldNands_ne {buttons : Buttons} {config : Config}
    (h : (coldNands buttons config).1 ≠ (coldNands buttons config).2) : buttons.holds .r := by
  unfold coldNands at h
  dsimp only at h
  split at h
  · next hr => exact hr
  · split at h <;> exact absurd rfl h

theorem decidedCold_starting (inputs : Inputs) : DecidedCold inputs (starting inputs) := by
  by_cases hrecovers : inputs.buttons = .recovery
  · have htitle : (starting inputs).title = .safe := if_pos hrecovers
    have hguard : (starting inputs).guard = .forced := if_pos hrecovers
    have hnand : (starting inputs).nand = .sys := congrArg Prod.fst (if_pos hrecovers)
    have hsource : (starting inputs).source = .sys := congrArg Prod.snd (if_pos hrecovers)
    constructor
    case kind => rfl
    case launched => rfl
    case recovery => exact iff_of_true ⟨htitle, hguard, hnand, hsource⟩ hrecovers
    case otherwise => exact absurd hrecovers
    case slots => simp [hnand, hsource]
    case oneSlot => simp [hnand]
    case mixed => simp [hnand, hsource]
  · have htitle : (starting inputs).title = .native := if_neg hrecovers
    have hnand : (starting inputs).nand = (coldNands inputs.buttons inputs.config).1 :=
      congrArg Prod.fst (if_neg hrecovers)
    have hsource : (starting inputs).source = (coldNands inputs.buttons inputs.config).2 :=
      congrArg Prod.snd (if_neg hrecovers)
    constructor
    case kind => rfl
    case launched => rfl
    case recovery => simp [htitle, hrecovers]
    case otherwise => exact fun _ => htitle
    case slots =>
      rw [hnand, hsource]
      intro slot hslot
      rw [slot_of_coldNands hslot]
      exact heldSlot_range inputs.buttons inputs.config
    case oneSlot =>
      rw [hnand, hsource]
      intro slot slot' hslot hslot'
      exact (slot_of_coldNands (.inl hslot)).trans (slot_of_coldNands (.inr hslot')).symm
    case mixed =>
      rw [hnand, hsource]
      exact holds_of_coldNands_ne

/-! ## Relaunches -/

/-- A relaunch of the same firmware is decided alike, whatever is held or shown meanwhile. -/
theorem ofInputs_congr (hwarm : inputs.launchFlag ≠ 0) (h : inputs.SameRequest inputs') :
    ofInputs inputs' = ofInputs inputs := by
  have hon : ∀ field : Config.Field, field.OfRelaunch →
      inputs'.config.isOn field = inputs.config.isOn field := by
    intro field hfield
    rw [Config.isOn, Config.isOn, h.fields field hfield]
  have hnand : inputs'.config.recordedNand = inputs.config.recordedNand :=
    congrArg Config.nandOf (h.fields .nandUsed (by decide))
  have hsource : inputs'.config.recordedSource = inputs.config.recordedSource :=
    congrArg Config.nandOf (h.fields .sourceUsed (by decide))
  have hguard : configuredGuard inputs'.config = configuredGuard inputs.config := by
    rw [configuredGuard, configuredGuard, hon .installed (by decide)]
  have hplan : relaunching inputs' = relaunching inputs := by
    funext title
    simp only [relaunching, h.model, hnand, hsource, hguard, hon .showsGbaScreen (by decide)]
  simp only [ofInputs, h.launchFlag, h.gbaMarker, hplan, if_neg hwarm]

theorem slot_le_of_nandOf {code slot : Nat} (hcode : code < 8)
    (h : Config.nandOf code = .emu slot) : 1 ≤ slot ∧ slot ≤ 7 := by
  have hfits := Config.fits_nandOf hcode
  rw [h] at hfits
  exact ⟨hfits.1, Nat.le_of_lt_succ hfits.2⟩

theorem decidedWarm_relaunching (inputs : Inputs) (title : Title) :
    DecidedWarm (relaunching inputs title) where
  kind := rfl
  splash := rfl
  launched := rfl
  slots := by
    rintro slot (hnand | hsource)
    · exact slot_le_of_nandOf (inputs.config.get_lt .nandUsed) hnand
    · exact slot_le_of_nandOf (inputs.config.get_lt .sourceUsed) hsource

/-! ## All decisions -/

theorem guard_of_installed (h : ofInputs inputs = .ok plan)
    (hinstalled : inputs.config.isOn .installed) : plan.guard ≠ .off := by
  have hconfigured : configuredGuard inputs.config = .primary := if_pos hinstalled
  unfold ofInputs at h
  split at h
  · obtain rfl := Except.ok.inj h
    unfold starting
    dsimp only
    rw [hconfigured]
    split <;> exact nofun
  · split at h
    · obtain rfl := Except.ok.inj h
      unfold relaunching
      rw [hconfigured]
      exact nofun
    · cases h

/-- What is decided, by the launch flag. A flag of zero starts the console, whatever the marker
says; any other relaunches the firmware it names, whatever is held or shown, or is refused. -/
theorem decided_by_launchFlag (inputs : Inputs) :
    (∀ err, ofInputs inputs = .error err ↔
      inputs.NameNone ∧ err = .unknownTitle inputs.launchFlag) ∧
    (inputs.launchFlag = 0 →
      (∀ gbaMarker, ofInputs { inputs with gbaMarker } = ofInputs inputs) ∧
        ∃ plan, ofInputs inputs = .ok plan ∧ DecidedCold inputs plan) ∧
    (inputs.launchFlag ≠ 0 →
      (∀ inputs', inputs.SameRequest inputs' → ofInputs inputs' = ofInputs inputs) ∧
        ∀ plan, ofInputs inputs = .ok plan → DecidedWarm plan) ∧
    ∀ plan, ofInputs inputs = .ok plan → inputs.config.isOn .installed → plan.guard ≠ .off := by
  refine ⟨ofInputs_eq_error_iff inputs, fun hcold => ⟨fun gbaMarker => ?_, ?_⟩,
    fun hwarm => ⟨fun inputs' => ofInputs_congr hwarm, fun plan hplan => ?_⟩,
    fun plan => guard_of_installed⟩
  · simp only [ofInputs, hcold]
    rfl
  · exact ⟨starting inputs, if_pos hcold, decidedCold_starting inputs⟩
  · rw [ofInputs, if_neg hwarm] at hplan
    split at hplan
    · obtain rfl := Except.ok.inj hplan
      exact decidedWarm_relaunching inputs _
    · cases hplan

end Plan
end BootStage
