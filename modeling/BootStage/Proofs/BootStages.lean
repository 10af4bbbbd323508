import BootStage.Boot.Sequence
import BootStage.Proofs.Loading
import BootStage.Proofs.MachineDeeds
import BootStage.Proofs.PatchFrame
import BootStage.Proofs.Slots
/-!
# The stages of a boot

Up to the hand-over a boot only waits, reads and fills its buffer, so the machine stays
untouched. Every stage ends in a value or in a failure, unless the storage claims more than fits
the buffer. The calls of a boot are those of its stages: the configuration, the splash, the
sectors, the firmware and the record.
-/

namespace BootStage

variable {σ κ δ ε α : Type}

namespace World

def With (P : Machine → Prop) (w : World σ κ δ) : Prop :=
  P w.machine

variable {allowed : Allowance} {P : Machine → Prop} {Q : α → Prop}

theorem ensures_onIntake {m : Run Event ε (Intake σ κ) α}
    (hm : Run.Ensures allowed (fun _ => True) m Q) :
    Run.Ensures allowed (With P) (onIntake m : Run Event ε (World σ κ δ) α) Q :=
  hm.onPart (fun _ _ => True.intro) fun _ _ h _ => h

theorem ensures_onStorage {m : Run Event ε σ α} (hm : Run.Ensures allowed (fun _ => True) m Q) :
    Run.Ensures allowed (With P) (onStorage m : Run Event ε (World σ κ δ) α) Q :=
  ensures_onIntake (hm.onPart (fun _ _ => True.intro) fun _ _ _ _ => True.intro)

theorem ensures_onCard {m : Run Event ε δ α} (hm : Run.Ensures allowed (fun _ => True) m Q) :
    Run.Ensures allowed (With P) (onCard m : Run Event ε (World σ κ δ) α) Q :=
  hm.onPart (fun _ _ => True.intro) fun _ _ h _ => h

theorem ensures_onMachine {m : Run Notice ε Machine α} (hm : Run.Ensures allowed P m Q) :
    Run.Ensures allowed (With P) (onMachine m : Run Event ε (World σ κ δ) α) Q :=
  Run.Ensures.mapEvents (hm.onPart (fun _ h => h) fun _ _ _ h => h)

theorem ensures_parse :
    Run.Ensures allowed (With P)
      (onIntake Intake.parse : Run Event BootFailure (World σ κ δ) Firm) Firm.SectionsFit :=
  ensures_onIntake (Intake.ensures_parse.mono fun _ hfirm => Firm.sectionsFit_of_parse hfirm)

theorem ensures_onFirm {firm : Firm} (plan : Plan) (kit : PatchKit) (hfits : firm.SectionsFit) :
    Run.Ensures allowed (With P)
      (onFirm firm (PatchSet.apply plan kit) : Run Event BootFailure (World σ κ δ) _)
      fun _ => True := by
  refine Run.Ensures.mapEvents (Run.Ensures.mapFailure ?_)
  have happly := (PatchSet.safe_apply plan kit hfits).forget
  exact happly.weaken.onPart (fun _ _ => .refl _ firm) fun _ _ h _ => h

end World

namespace Run

theorem calls_bind_of_silent {m : Run Event ε σ α} {β : Type} {next : α → Run Event ε σ β}
    (hnext : ∀ a, Silent (next a)) (s : σ) :
    Event.calls ((m >>= next) s).events = Event.calls (m s).events := by
  cases hresult : (m s).result with
  | error stop => rw [calls_bind_of_error hresult]
  | ok a => rw [calls_bind_of_ok hresult, hnext a, List.append_nil]

theorem events_attempt {ε' : Type} (m : Run Event ε σ α) (s : σ) :
    ((attempt m : Run Event ε' σ (Except ε α)) s).events = (m s).events := by
  unfold attempt
  generalize m s = out
  obtain ⟨result, s', events⟩ := out
  cases result with
  | ok a => rfl
  | error stop => cases stop <;> rfl

end Run

/-! ## Deciding -/

namespace Plan

def showsSplash (inputs : Inputs) : Prop :=
  inputs.launchFlag = 0 ∧ (inputs.displayOn ∨ inputs.config.get .splash ≠ 0)

def wantsImage (inputs : Inputs) : Prop :=
  ∃ plan, ofInputs inputs = .ok plan ∧ ∃ slot, plan.nand = .emu slot ∨ plan.source = .emu slot

theorem kind_of_ofInputs {inputs : Inputs} {plan : Plan} (h : ofInputs inputs = .ok plan) :
    plan.kind = .cold ↔ inputs.launchFlag = 0 := by
  unfold ofInputs at h
  split at h
  · next hcold =>
    obtain rfl := Except.ok.inj h
    exact ⟨fun _ => hcold, fun _ => rfl⟩
  · next hwarm =>
    split at h
    · obtain rfl := Except.ok.inj h
      exact ⟨fun hkind => (nomatch hkind), fun hcold => absurd hcold hwarm⟩
    · cases h

theorem splash_of_ofInputs {inputs : Inputs} {plan : Plan} (h : ofInputs inputs = .ok plan) :
    plan.splash.isSome ↔ showsSplash inputs := by
  unfold ofInputs at h
  unfold showsSplash
  split at h
  · next hcold =>
    obtain rfl := Except.ok.inj h
    unfold starting Config.isOn
    dsimp only
    split
    · next hshown => simpa [hcold] using hshown
    · next hhidden => simpa [hcold] using hhidden
  · next hwarm =>
    split at h
    · obtain rfl := Except.ok.inj h
      exact ⟨fun hsome => (nomatch hsome), fun hshown => absurd hshown.1 hwarm⟩
    · cases h

end Plan

namespace Boot

variable {allowed : Allowance} {start : Machine} [Storage σ] [Crypto κ] [Card δ]

omit [Storage σ] [Crypto κ] [Card δ] in
theorem ensures_decide (inputs : Inputs) :
    Run.Ensures allowed (World.With start.Untouched)
      (Run.mapEvents .notice (decide inputs) : Run Event BootFailure (World σ κ δ) Plan)
      fun plan => Plan.ofInputs inputs = .ok plan := by
  refine Run.Ensures.mapEvents (Run.Ensures.bind (.ofExcept fun plan hplan => hplan) ?_)
  exact fun plan hplan => Run.Ensures.emit.bind fun _ _ => .pure hplan

omit [Storage σ] [Crypto κ] [Card δ] in
theorem ensures_drawSplash (plan : Plan) :
    Run.Ensures allowed (World.With start.Untouched)
      (drawSplash plan : Run Event BootFailure (World σ κ δ) Unit) fun _ => True := by
  unfold drawSplash
  cases plan.splash with
  | none => exact .pure True.intro
  | some delay =>
    have hsleep : Run.Ensures allowed start.Untouched
        (modify (·.sleep delay) : Run Notice BootFailure Machine Unit) fun _ => True :=
      .modify fun m hm => hm.trans (m.untouched_sleep delay)
    exact Run.Ensures.emit.bind fun _ _ => World.ensures_onMachine hsleep

omit [Storage σ] [Crypto κ] in
/-- What a boot settles on can be recorded, and is a cold boot just when the inputs are. -/
theorem ensures_settle (inputs : Inputs) :
    Run.Ensures allowed (World.With start.Untouched)
      (settle inputs : Run Event BootFailure (World σ κ δ) _) fun settled =>
        settled.1.Recordable ∧ (settled.1.kind = .cold ↔ inputs.launchFlag = 0) := by
  refine (ensures_decide inputs).bind fun plan hplan => (ensures_drawSplash plan).bind fun _ _ => ?_
  have hresolve := CardImage.safe_resolve (δ := δ) (ε := BootFailure)
    (Plan.recordable_of_ofInputs hplan)
  refine (World.ensures_onCard hresolve.weaken).mono fun settled hsettled => ⟨hsettled.1, ?_⟩
  rw [hsettled.2]
  exact Plan.kind_of_ofInputs hplan

/-! ## Up to the hand-over -/

theorem ensures_fetch (htruthful : Storage.Truthful σ ∨ allowed.overruns) :
    Run.Ensures allowed (World.With start.Untouched)
      (fetch : Run Event BootFailure (World σ κ δ) Fetched) fun found => found.plan.Recordable := by
  have hconfig : Run.Ensures allowed (fun _ : σ => True) (Config.load : Run Event BootFailure σ _)
      fun _ => True := by
    intro s _
    obtain ⟨result, notices, hload, hresult⟩ := Config.load_spec (ε := BootFailure) s
    rw [hload]
    rcases hresult with ⟨config, origin, rfl⟩ | ⟨rfl, hlies⟩
    · exact ⟨True.intro, True.intro⟩
    · exact ⟨True.intro, htruthful.resolve_left hlies⟩
  refine (World.ensures_onStorage hconfig).bind fun found _ => Run.Ensures.get.bind fun w _ => ?_
  apply (ensures_settle _).bind
  intro settled hsettled
  have hload := LoadedImage.ensures_load (κ := κ) htruthful settled.1
    (found.1.isOn .loadExternal)
  exact (World.ensures_onIntake hload).bind fun loaded _ => .pure hsettled.1

omit [Crypto κ] [Card δ] in
theorem ensures_recordPlan (config : Config) (origin : Config.Origin) {plan : Plan}
    (hplan : plan.Recordable) :
    Run.Ensures allowed (World.With start.Untouched)
      (recordPlan config origin plan : Run Event BootFailure (World σ κ δ) Unit)
      fun _ => True := by
  have hrecord := Config.safe_record (σ := σ) config origin hplan
  apply (World.ensures_onStorage hrecord.weaken).attempt.bind
  intro recorded _
  cases recorded with
  | ok _ => exact .pure True.intro
  | error err => exact .emit

omit [Storage σ] [Crypto κ] [Card δ] in
theorem ensures_patchLoaded (plan : Plan) (kit : PatchKit) :
    Run.Ensures allowed (World.With start.Untouched)
      (patchLoaded plan kit : Run Event BootFailure (World σ κ δ) _) fun _ => True :=
  World.ensures_parse.bind fun _ hfits =>
    (World.ensures_onFirm plan kit hfits).bind fun _ _ => .pure True.intro

/-- Until the hand-over nothing is done to the machine. -/
theorem ensures_prepare (htruthful : Storage.Truthful σ ∨ allowed.overruns)
    (payloads : Payloads) :
    Run.Ensures allowed (World.With start.Untouched)
      (prepare payloads : Run Event BootFailure (World σ κ δ) _) fun _ => True := by
  apply (ensures_fetch htruthful).bind
  intro found hplan
  apply (ensures_recordPlan found.config found.origin hplan).bind
  intro _ _
  apply Run.Ensures.get.bind
  intro w _
  exact (ensures_patchLoaded found.plan _).bind fun _ _ => .pure True.intro

/-! ## Calls -/

def splashCalls (plan : Plan) : List Call :=
  if plan.splash.isSome then [.drawSplash] else []

omit [Storage σ] [Crypto κ] [Card δ] in
theorem drawSplash_spec (plan : Plan) (w : World σ κ δ) :
    ((drawSplash plan : Run Event BootFailure (World σ κ δ) Unit) w).result = .ok () ∧
      Event.calls ((drawSplash plan : Run Event BootFailure (World σ κ δ) Unit) w).events =
        splashCalls plan := by
  unfold drawSplash splashCalls
  cases plan.splash <;> exact ⟨rfl, rfl⟩

/-- Sectors are read only when an image was decided on. -/
def SectorsFor (inputs : Inputs) (sectors : List Call) : Prop :=
  ∀ c ∈ sectors, c.IsSector ∧ Plan.wantsImage inputs

omit [Storage σ] [Crypto κ] in
theorem settle_of_ok {inputs : Inputs} {plan : Plan} (h : Plan.ofInputs inputs = .ok plan) :
    (settle inputs : Run Event BootFailure (World σ κ δ) _) =
      Run.emit (.notice (.planned plan)) >>= fun _ =>
        drawSplash plan >>= fun _ => World.onCard (CardImage.resolve plan) := by
  unfold settle decide
  rw [h]
  rfl

omit [Storage σ] [Crypto κ] in
theorem settle_of_error {inputs : Inputs} {err : BootFailure}
    (h : Plan.ofInputs inputs = .error err) :
    (settle inputs : Run Event BootFailure (World σ κ δ) _) = throw err := by
  unfold settle decide
  rw [h]
  rfl

omit [Storage σ] [Crypto κ] in
theorem calls_settle (inputs : Inputs) (w : World σ κ δ) :
    ∃ splash sectors,
      Event.calls ((settle inputs : Run Event BootFailure (World σ κ δ) _) w).events =
          splash ++ sectors ∧
        (∀ c ∈ splash, c = .drawSplash) ∧ (.drawSplash ∈ splash ↔ Plan.showsSplash inputs) ∧
        SectorsFor inputs sectors := by
  cases hdecided : Plan.ofInputs inputs with
  | error err =>
    -- A cold boot always decides, so there was no splash to show.
    have hwarm : inputs.launchFlag ≠ 0 := by
      intro hcold
      rw [Plan.ofInputs, if_pos hcold] at hdecided
      cases hdecided
    rw [settle_of_error hdecided]
    exact ⟨[], [], rfl, nofun, ⟨nofun, fun hshown => absurd hshown.1 hwarm⟩, nofun⟩
  | ok plan =>
    have hsplash := drawSplash_spec plan w
    have hshown := Plan.splash_of_ofInputs hdecided
    rw [settle_of_ok hdecided, Run.calls_bind_of_ok rfl]
    dsimp only [Run.emit]
    rw [Run.calls_bind_of_ok hsplash.1, hsplash.2]
    refine ⟨splashCalls plan, _, rfl, ?_, ?_, ?_⟩
    · intro c hc
      unfold splashCalls at hc
      split at hc
      · exact List.mem_singleton.1 hc
      · cases hc
    · rw [← hshown]
      unfold splashCalls
      split
      · next hsome => exact ⟨fun _ => hsome, fun _ => List.mem_singleton.2 rfl⟩
      · next hnone => exact ⟨nofun, fun hsome => absurd hsome hnone⟩
    · intro c hc
      obtain ⟨hsector, hslot⟩ := (CardImage.calling_resolve plan).onPart _ c hc
      exact ⟨hsector, plan, hdecided, hslot⟩

/-- The calls that follow once the inputs are known: the splash, then sectors, then those that
load the firmware. -/
def FetchCalls (inputs : Inputs) (calls : List Call) : Prop :=
  ∃ splash sectors loads, calls = splash ++ (sectors ++ loads) ∧
    (∀ c ∈ splash, c = .drawSplash) ∧ (.drawSplash ∈ splash ↔ Plan.showsSplash inputs) ∧
    SectorsFor inputs sectors ∧ ∀ c ∈ loads, c.IsLoading

theorem calls_fetchWith (config : Config) (origin : Config.Origin) (w : World σ κ δ) :
    FetchCalls (w.machine.inputs config)
      (Event.calls ((fetchWith config origin : Run Event BootFailure _ _) w).events) := by
  obtain ⟨splash, sectors, hcalls, hsplash, hshown, hsectors⟩ :=
    calls_settle (w.machine.inputs config) w
  unfold fetchWith
  rw [Run.calls_bind_of_ok (m := get) rfl]
  dsimp only
  change FetchCalls _ (Event.calls ((settle (w.machine.inputs config) >>= _) w).events)
  cases hsettled : ((settle (w.machine.inputs config) : Run Event BootFailure _ _) w).result with
  | error stop =>
    rw [Run.calls_bind_of_error hsettled, hcalls]
    exact ⟨splash, sectors, [], by rw [List.append_nil], hsplash, hshown, hsectors, nofun⟩
  | ok settled =>
    obtain ⟨plan, location⟩ := settled
    rw [Run.calls_bind_of_ok hsettled, hcalls, List.append_assoc]
    refine ⟨splash, sectors, _, rfl, hsplash, hshown, hsectors, ?_⟩
    exact (LoadedImage.calling_load plan _).onPart.bind (fun _ => .pure) _

theorem kind_of_fetchWith {config : Config} {origin : Config.Origin} {w : World σ κ δ}
    {found : Fetched}
    (h : ((fetchWith config origin : Run Event BootFailure _ _) w).result = .ok found) :
    found.plan.kind = .cold ↔ (w.machine.inputs config).launchFlag = 0 := by
  obtain ⟨w', hw', hrest⟩ := Run.of_bind_ok h
  obtain rfl := Except.ok.inj hw'
  obtain ⟨settled, hsettled, hload⟩ := Run.of_bind_ok hrest
  obtain ⟨loaded, -, hfound⟩ := Run.of_bind_ok hload
  obtain rfl := Except.ok.inj hfound
  have hsettle : Run.Safe (World.With w.machine.Untouched)
      (settle (w.machine.inputs config) : Run Event BootFailure (World σ κ δ) _) _ :=
    ensures_settle (w.machine.inputs config)
  have hends := (hsettle w (.refl w.machine)).2
  change Run.Ends _ _ ((settle (w.machine.inputs config) : Run Event BootFailure _ _) w).result
    at hends
  rw [show ((settle (w.machine.inputs config) : Run Event BootFailure _ _) w).result =
    .ok settled from hsettled] at hends
  exact hends.2

/-- The inputs of a boot, which its configuration completes. -/
def inputs? (w : World σ κ δ) : Option Inputs :=
  match (Config.load w.intake.storage : Outcome Event BootFailure σ _).result with
  | .ok (config, _) => some (w.machine.inputs config)
  | .error _ => none

omit [Crypto κ] [Card δ] in
theorem readConfig_spec (w : World σ κ δ) :
    ∃ events w',
      (World.onStorage Config.load : Run Event BootFailure _ _) w =
          ⟨(Config.load w.intake.storage : Outcome Event BootFailure σ _).result, w', events⟩ ∧
        Event.calls events = [.getFile Config.path (Config.fileSize + 1)] ∧
        w'.machine = w.machine := by
  obtain ⟨result, notices, hload, -⟩ := Config.load_spec (ε := BootFailure) w.intake.storage
  have hread : (World.onStorage Config.load : Run Event BootFailure (World σ κ δ) _) w =
      ⟨(Config.load w.intake.storage : Outcome Event BootFailure σ _).result,
        { w with intake := { w.intake with storage := (Config.load w.intake.storage :
          Outcome Event BootFailure σ _).state } },
        (Config.load w.intake.storage : Outcome Event BootFailure σ _).events⟩ := rfl
  refine ⟨_, _, hread, ?_, rfl⟩
  rw [hload]
  exact congrArg (List.cons _) (Event.calls_notices notices)

/-- The configuration is read first. What is fetched then is fetched for the inputs it
completes. -/
theorem fetch_spec (w : World σ κ δ) :
    ∃ calls,
      Event.calls (fetch w : Outcome Event BootFailure _ _).events =
          .getFile Config.path (Config.fileSize + 1) :: calls ∧
        match inputs? w with
        | some inputs =>
          FetchCalls inputs calls ∧
            ∀ found, (fetch w : Outcome Event BootFailure _ _).result = .ok found →
              (found.plan.kind = .cold ↔ inputs.launchFlag = 0)
        | none =>
          calls = [] ∧ ∀ found, (fetch w : Outcome Event BootFailure _ _).result ≠ .ok found := by
  obtain ⟨events, w', hread, hcalls, hmachine⟩ := readConfig_spec (κ := κ) (δ := δ) w
  have hfetch : (fetch w : Outcome Event BootFailure _ _) = Run.andThen
      ⟨(Config.load w.intake.storage : Outcome Event BootFailure σ _).result, w', events⟩
      fun found => fetchWith found.1 found.2 := by
    rw [← hread]
    rfl
  rw [hfetch]
  unfold inputs?
  generalize (Config.load w.intake.storage : Outcome Event BootFailure σ _).result = result
  cases result with
  | error stop =>
    dsimp only [Run.andThen]
    exact ⟨[], hcalls, rfl, fun _ hfound => nomatch hfound⟩
  | ok found =>
    obtain ⟨config, origin⟩ := found
    rw [← hmachine]
    dsimp only [Run.andThen]
    rw [Event.calls_append, hcalls]
    exact ⟨_, rfl, calls_fetchWith config origin w', fun found hfound => kind_of_fetchWith hfound⟩

end Boot
end BootStage
