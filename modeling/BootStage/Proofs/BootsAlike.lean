import BootStage.Device.InMemory
import BootStage.Proofs.BootStages
import BootStage.Proofs.LoadsAlike
/-!
# Boots side by side

Two boots whose storages answer alike, and whose machines differ in nothing a boot decides on, go
through the same stages with the same results. The record of a boot is the one stage in which
results may differ; the boot goes on as if they did not.
-/

namespace BootStage

variable {σ τ κ δ ε α : Type}

namespace Machine

/-- Runs on related machines with the same result, whatever they give notice of. -/
abbrev RunsAlike (M M' : Machine → Machine → Prop) (run run' : Run Notice ε Machine α) : Prop :=
  Run.Alike (fun _ : Notice => (none : Option Call)) M M' run run'

/-- Machines related by `M` boot alike: they are not told apart by what a boot decides on. Those
related by `M'` are handed over alike. -/
structure BootAlike (M M' : Machine → Machine → Prop) : Prop where
  decided : ∀ m m' config, M m m' →
    Plan.ofInputs (m'.inputs config) = Plan.ofInputs (m.inputs config)
  /-- Time may pass where the boot shows its splash. -/
  shown : ∀ m m' config plan delay, M m m' → Plan.ofInputs (m.inputs config) = .ok plan →
    plan.splash = some delay → ∀ n n', M n n' → M (n.sleep delay) (n'.sleep delay)
  unit : ∀ m m', M m m' → m'.isDevelopmentUnit = m.isDevelopmentUnit
  untouched : ∀ m m', M m m' → M' m m'
  placed : ∀ index address data, RunsAlike M' M'
    (HandOver.place index address data : Run Notice BootFailure Machine Unit)
    (HandOver.place index address data)
  launched : ∀ firm plan, RunsAlike M' M'
    (HandOver.launch firm plan : Run Notice BootFailure Machine Unit) (HandOver.launch firm plan)

theorem bootAlike_eq : BootAlike Eq Eq := by
  constructor
  case decided =>
    rintro m _ config rfl
    rfl
  case shown =>
    rintro - - - - delay - - - n _ rfl
    rfl
  case unit =>
    rintro m _ rfl
    rfl
  case untouched => exact fun _ _ h => h
  case placed => exact fun _ _ _ => .refl _
  case launched => exact fun _ _ => .refl _

end Machine

namespace World

structure Alike (S : σ → τ → Prop) (M : Machine → Machine → Prop) (w : World σ κ δ)
    (w' : World τ κ δ) : Prop where
  intake : w.intake.Alike S w'.intake
  card : w'.card = w.card
  machine : M w.machine w'.machine

variable {S S' : σ → τ → Prop} {M M' : Machine → Machine → Prop}

theorem Alike.mono {w : World σ κ δ} {w' : World τ κ δ} (h : Alike S M w w')
    (hstorage : ∀ s t, S s t → S' s t) (hmachine : ∀ m m', M m m' → M' m m') :
    Alike S' M' w w' :=
  ⟨⟨hstorage _ _ h.intake.storage, h.intake.crypto, h.intake.buffer⟩, h.card,
    hmachine _ _ h.machine⟩

theorem alike_onIntake {m : Run Event ε (Intake σ κ) α} {m' : Run Event ε (Intake τ κ) α}
    (hm : Run.Alike Event.call? (Intake.Alike S) (Intake.Alike S') m m') :
    Run.Alike Event.call? (Alike S M) (Alike S' M)
      (onIntake m : Run Event ε (World σ κ δ) α) (onIntake m') :=
  hm.onPart (fun _ _ h => h.intake) fun _ _ _ _ h hintake => ⟨hintake, h.card, h.machine⟩

theorem alike_onCard (m : Run Event ε δ α) :
    Run.Alike Event.call? (Alike S M) (Alike S M)
      (onCard m : Run Event ε (World σ κ δ) α) (onCard m) :=
  (Run.Alike.refl m).onPart (fun _ _ h => h.card.symm) fun _ _ _ _ h hcard =>
    ⟨h.intake, hcard.symm, h.machine⟩

theorem alike_onMachine {m m' : Run Notice ε Machine α} (hm : Machine.RunsAlike M M' m m') :
    Run.Alike Event.call? (Alike S M) (Alike S M')
      (onMachine m : Run Event ε (World σ κ δ) α) (onMachine m') :=
  Run.Alike.mapEvents (fun _ => rfl)
    (hm.onPart (fun _ _ h => h.machine) fun _ _ _ _ h hmachine => ⟨h.intake, h.card, hmachine⟩)

theorem alike_onFirm (firm : Firm) (edit : FirmEdit α) :
    Run.Alike Event.call? (Alike S M) (Alike S M)
      (onFirm firm edit : Run Event BootFailure (World σ κ δ) α) (onFirm firm edit) := by
  have hedit : Run.Alike (fun _ : Notice => (none : Option Call)) Eq Eq edit edit := .refl edit
  refine Run.Alike.mapEvents (fun _ => rfl) (Run.Alike.mapFailure ?_)
  refine hedit.onPart (fun _ _ _ => rfl) ?_
  rintro w w' edited _ h rfl
  exact ⟨⟨h.intake.storage, h.intake.crypto, rfl⟩, h.card, h.machine⟩

end World

namespace Boot

variable {S S' : σ → τ → Prop} {M M' : Machine → Machine → Prop}

/-! ## Settling -/

theorem alike_settle [Card δ] {inputs inputs' : Inputs}
    (hsame : Plan.ofInputs inputs' = Plan.ofInputs inputs)
    (hshown : ∀ plan delay, Plan.ofInputs inputs = .ok plan → plan.splash = some delay →
      ∀ m m', M m m' → M (m.sleep delay) (m'.sleep delay)) :
    Run.Alike Event.call? (World.Alike S M) (World.Alike S M)
      (settle inputs : Run Event BootFailure (World σ κ δ) _) (settle inputs') := by
  cases hplan : Plan.ofInputs inputs with
  | error err =>
    rw [settle_of_error hplan, settle_of_error (hsame.trans hplan)]
    exact .throw
  | ok plan =>
    have hsplash : Run.Alike Event.call? (World.Alike S M) (World.Alike S M)
        (drawSplash plan : Run Event BootFailure (World σ κ δ) _) (drawSplash plan) := by
      unfold drawSplash
      cases hdelay : plan.splash with
      | none => exact .pure
      | some delay =>
        exact Run.Alike.emit.bind fun _ =>
          World.alike_onMachine (.modify (hshown plan delay hplan hdelay))
    rw [settle_of_ok hplan, settle_of_ok (hsame.trans hplan)]
    exact Run.Alike.emit.bind fun _ => hsplash.bind fun _ => World.alike_onCard _

/-! ## The stages -/

variable [Storage σ] [Storage τ] [Crypto κ] [Card δ] {path : String}

theorem alike_fetch (hstorage : Storage.AnswerAlike path S S')
    (hmachine : Machine.BootAlike M M') :
    Run.Alike Event.call? (World.Alike S M) (World.Alike S M)
      (fetch : Run Event BootFailure (World σ κ δ) _) fetch := by
  apply (World.alike_onIntake (Intake.alike_onStorage (Config.alike_load hstorage))).bind
  rintro ⟨config, origin⟩
  apply Run.Alike.get_bind
  intro w w' hworld
  apply (alike_settle (hmachine.decided _ _ config hworld.machine)
    fun plan delay => hmachine.shown _ _ config plan delay hworld.machine).bind
  rintro ⟨plan, location⟩
  exact (World.alike_onIntake (LoadedImage.alike_load hstorage plan _)).bind fun _ => .pure

omit [Storage σ] [Storage τ] [Crypto κ] [Card δ] in
theorem alike_patchLoaded (plan : Plan) (kit : PatchKit) :
    Run.Alike Event.call? (World.Alike S M) (World.Alike S M)
      (patchLoaded plan kit : Run Event BootFailure (World σ κ δ) _) (patchLoaded plan kit) := by
  apply (World.alike_onIntake Intake.alike_parse).bind
  intro firm
  exact (World.alike_onFirm firm _).bind fun _ => .pure

omit [Storage τ] [Crypto κ] [Card δ] in
/-- A boot that writes its record goes on, whatever comes of the write. -/
theorem recordPlan_of_save {config updated : Config} {origin : Config.Origin} {plan : Plan}
    (hrecord : (Config.record config origin plan : Run Event StorageFailure σ _) =
      Config.save updated >>= fun _ => pure updated) (w : World σ κ δ) :
    ∃ notices : List Notice,
      (recordPlan config origin plan : Run Event BootFailure (World σ κ δ) _) w =
        ⟨.ok (), { w with intake := { w.intake with
            storage := (Storage.putFile Config.path updated.encode w.intake.storage).2 } },
          .call (.putFile Config.path updated.encode) :: notices.map .notice⟩ := by
  unfold recordPlan
  rw [hrecord, Run.bind_apply]
  unfold Run.attempt World.onStorage World.onIntake Intake.onStorage Run.onPart Config.save
    Storage.write
  simp only [Run.bind_apply, Run.emit, Run.andThen, Run.ofStep_apply]
  cases Storage.putFile Config.path updated.encode w.intake.storage with
  | mk result written =>
    cases result with
    | ok _ => exact ⟨[], rfl⟩
    | error err => exact ⟨[.recordFailed err], rfl⟩

omit [Crypto κ] [Card δ] in
/-- Whether the record is written, and what is written then, is told by the plan. -/
theorem alike_recordPlan (hstorage : Storage.AnswerAlike Config.path S S') (config : Config)
    (origin : Config.Origin) (plan : Plan) :
    Run.Alike Event.call? (World.Alike S M) (World.Alike S' M)
      (recordPlan config origin plan : Run Event BootFailure (World σ κ δ) _)
      (recordPlan config origin plan) := by
  intro w w' h
  have hunwritten : World.Alike S' M w w' := h.mono hstorage.unwritten fun _ _ hm => hm
  cases hkind : plan.kind with
  | relaunch =>
    simp only [recordPlan, Config.record, hkind]
    exact ⟨rfl, rfl, hunwritten⟩
  | cold =>
    cases hupdated : config.recording? plan.nand plan.source plan.title with
    | none =>
      simp only [recordPlan, Config.record, hkind, hupdated]
      exact ⟨rfl, rfl, hunwritten⟩
    | some updated =>
      by_cases hwrites : origin = .defaulted ∨ updated ≠ config
      · have hrecord : ∀ {ρ : Type} [Storage ρ],
            (Config.record config origin plan : Run Event StorageFailure ρ _) =
              Config.save updated >>= fun _ => pure updated := by
          intro ρ _
          simp only [Config.record, hkind, hupdated, if_pos hwrites]
        obtain ⟨notices, hsaved⟩ := recordPlan_of_save hrecord w
        obtain ⟨notices', hsaved'⟩ := recordPlan_of_save hrecord w'
        rw [hsaved, hsaved']
        have hwritten := hstorage.putFile updated.encode _ _ h.intake.storage
        refine ⟨rfl, ?_, ⟨⟨hwritten, h.intake.crypto, h.intake.buffer⟩, h.card, h.machine⟩⟩
        exact congrArg (List.cons _)
          ((Event.calls_notices notices').trans (Event.calls_notices notices).symm)
      · simp only [recordPlan, Config.record, hkind, hupdated, if_neg hwrites]
        exact ⟨rfl, rfl, hunwritten⟩

omit [Storage σ] [Storage τ] [Crypto κ] [Card δ] in
theorem alike_handOver (hmachine : Machine.BootAlike M M') (plan : Plan)
    (rebuilt : Option (Section × Bytes)) :
    Run.Alike Event.call? (World.Alike S M) (World.Alike S M')
      (handOver plan rebuilt : Run Event BootFailure (World σ κ δ) _) (handOver plan rebuilt) := by
  have hplace : Machine.RunsAlike M' M'
      (placeRebuilt rebuilt : Run Notice BootFailure Machine Unit) (placeRebuilt rebuilt) := by
    cases rebuilt with
    | none => exact .pure
    | some built => exact hmachine.placed 0 built.1.address built.2
  have hhanded : Run.Alike Event.call? (World.Alike S M') (World.Alike S M')
      (handOver plan rebuilt : Run Event BootFailure (World σ κ δ) _) (handOver plan rebuilt) := by
    apply (World.alike_onMachine hplace).bind
    intro _
    apply (World.alike_onIntake Intake.alike_parse).bind
    intro firm
    exact Run.Alike.emit.bind fun _ => World.alike_onMachine (hmachine.launched firm plan)
  exact hhanded.strengthen fun _ _ h => h.mono (fun _ _ hs => hs) hmachine.untouched

/-- From alike worlds a boot comes to the same, up to its jump or its failure. -/
theorem alike_attempt (hstorage : Storage.AnswerAlike Config.path S S')
    (hmachine : Machine.BootAlike M M') (payloads : Payloads) :
    Run.Alike Event.call? (World.Alike S M) (World.Alike S' M')
      (attempt payloads : Run Event BootFailure (World σ κ δ) _) (attempt payloads) := by
  have hprepare : Run.Alike Event.call? (World.Alike S M) (World.Alike S' M)
      (prepare payloads : Run Event BootFailure (World σ κ δ) _) (prepare payloads) := by
    refine (alike_fetch hstorage hmachine).bind_of_le (fun found => ?_) fun _ _ h =>
      h.mono hstorage.unwritten fun _ _ hm => hm
    refine (alike_recordPlan hstorage _ _ _).bind_of_le (fun _ => ?_) fun _ _ h => h
    apply Run.Alike.get_bind
    intro w w' hworld
    rw [hmachine.unit _ _ hworld.machine]
    exact (alike_patchLoaded _ _).bind fun _ => .pure
  exact hprepare.bind_of_le (fun prepared => alike_handOver hmachine _ _) fun _ _ h =>
    h.mono (fun _ _ hs => hs) hmachine.untouched

/-- A console with a plain cipher and nothing on its card, to run boots on. -/
def console (storage : FileStore) (machine : Machine) : World FileStore XorCipher SectorImage where
  intake := { storage, crypto := .plain, buffer := Array.replicate 0x400 0 }
  card := ⟨0x1D8000, fun _ => none⟩
  machine

end Boot
end BootStage
