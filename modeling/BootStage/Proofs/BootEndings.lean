import BootStage.Proofs.BootStages
/-!
# How a boot ends

A boot ends in a jump, which is the last thing it does, or goes on to show its failure and to
turn the power off. Between fetching the firmware and its end it makes one call at most, which
writes the record.
-/

namespace BootStage

variable {σ κ δ : Type}

namespace Boot

/-! ## The hand-over -/

theorem ensures_placeRebuilt {allowed : Allowance} {was : Option (UInt32 × Option UInt32)}
    (rebuilt : Option (Section × Bytes)) :
    Run.Ensures allowed (fun m : Machine => m.jumped = was) (placeRebuilt rebuilt)
      fun _ => True := by
  cases rebuilt with
  | none => exact .pure True.intro
  | some placed => exact HandOver.ensures_place 0 placed.1.address placed.2

/-- A hand-over jumps last, or not at all. -/
theorem reaches_handOver {allowed : Allowance} (hwaits : allowed.waits) (plan : Plan)
    (rebuilt : Option (Section × Bytes)) (was : Option (UInt32 × Option UInt32)) :
    Run.Reaches allowed (World.With fun m => m.jumped = was)
      (World.With (HandOver.JustJumped was))
      (handOver plan rebuilt : Run Event BootFailure (World σ κ δ) Unit) := by
  refine .bind (World.ensures_onMachine (ensures_placeRebuilt rebuilt)) fun _ _ => ?_
  refine .bind World.ensures_parse fun firm _ => .bind .emit fun _ _ => ?_
  refine .mapEvents ((HandOver.reaches_launch hwaits firm plan).onPart (fun _ h => h) ?_ ?_)
  · exact fun _ _ _ h => h
  · exact fun _ _ _ h => h

theorem silent_handOver (plan : Plan) (rebuilt : Option (Section × Bytes)) :
    Run.Silent (handOver plan rebuilt : Run Event BootFailure (World σ κ δ) Unit) := by
  refine Run.silent_of_calling (Run.Calling.mapNotices.bind fun _ => ?_)
  refine (Run.Calling.get.bind fun _ => .ofExcept).onPart.bind fun firm => ?_
  exact Run.Calling.notice.bind fun _ => .mapNotices

/-! ## The error screen -/

/-- Waiting for a button leaves the machine alone, and may take forever. -/
theorem awaitPress_spec (m : Machine) :
    m.Untouched (awaitPress m).state ∧ Event.calls (awaitPress m).events = [] ∧
      ((awaitPress m).result = .ok () ∨ (awaitPress m).result = .error .stuck) := by
  unfold awaitPress
  rw [Run.bind_of_ok (m := get) rfl]
  dsimp only
  cases hreleased : m.sleepUntil (· == .none) pollMs with
  | none => exact ⟨.refl m, rfl, .inr rfl⟩
  | some released =>
    dsimp only
    cases hpressed : released.sleepUntil (· != .none) pollMs with
    | none => exact ⟨.refl m, rfl, .inr rfl⟩
    | some pressed =>
      have hwaited := (Machine.untouched_sleepUntil hreleased).trans
        (Machine.untouched_sleepUntil hpressed)
      exact ⟨hwaited, rfl, .inl rfl⟩

/-- An error that is shown leaves the machine alone; then the power goes off, unless no button is
ever pressed. -/
theorem drawFailure_spec (err : BootFailure) (m : Machine) :
    m.Untouched (drawFailure err m).state ∧
      ((drawFailure err m).result = .ok () ∧
          Event.calls (drawFailure err m).events = [.drawFailure err, .shutDown] ∨
        (drawFailure err m).result = .error .stuck ∧
          Event.calls (drawFailure err m).events = [.drawFailure err]) := by
  obtain ⟨huntouched, hsilent, hend⟩ := awaitPress_spec m
  have hshown : drawFailure err m = Run.andThen
      ⟨.ok (), m, [.notice (.failed err), .call (.drawFailure err)]⟩
      fun _ => awaitPress >>= fun _ => Run.emit (.call .shutDown) := rfl
  rw [hshown]
  rcases hend with hok | hstuck
  · dsimp only [Run.andThen]
    rw [Run.bind_of_ok hok]
    refine ⟨huntouched, .inl ⟨rfl, ?_⟩⟩
    dsimp only
    rw [Event.calls_append, Event.calls_append, hsilent]
    rfl
  · dsimp only [Run.andThen]
    rw [Run.bind_of_error hstuck]
    refine ⟨huntouched, .inr ⟨rfl, ?_⟩⟩
    dsimp only
    rw [Event.calls_append, hsilent]
    rfl

variable [Storage σ] [Crypto κ] [Card δ]

/-! ## The record -/

omit [Crypto κ] [Card δ] in
theorem calls_recordPlan (config : Config) (origin : Config.Origin) (plan : Plan)
    (w : World σ κ δ) :
    Event.calls ((recordPlan config origin plan : Run Event BootFailure _ _) w).events = [] ∨
      plan.kind = .cold ∧ ∃ data,
        Event.calls ((recordPlan config origin plan : Run Event BootFailure _ _) w).events =
          [.putFile Config.path data] := by
  have hrecord := Config.calls_record config origin plan w.intake.storage
  have hcalls : Event.calls ((recordPlan config origin plan : Run Event BootFailure _ _) w).events =
      Event.calls (Config.record config origin plan w.intake.storage).events := by
    unfold recordPlan
    rw [Run.calls_bind_of_silent (fun recorded => ?_), Run.events_attempt]
    · rfl
    · cases recorded <;> exact fun _ => rfl
  rw [hcalls]
  exact hrecord

/-- The firmware was fetched for a cold boot, and then the file was written. -/
def WrittenAfter (w : World σ κ δ) (calls : List Call) : Prop :=
  ∃ found, (fetch w : Outcome Event BootFailure _ _).result = .ok found ∧
    found.plan.kind = .cold ∧ ∃ data, calls = [.putFile Config.path data]

/-- After the firmware was fetched, the only call left is the record's write. -/
theorem prepare_spec (payloads : Payloads) (w : World σ κ δ) :
    ∃ later,
      (prepare payloads w : Outcome Event BootFailure _ _).events =
          (fetch w : Outcome Event BootFailure _ _).events ++ later ∧
        (Event.calls later = [] ∨ WrittenAfter w (Event.calls later)) := by
  unfold prepare
  cases hfetched : (fetch w : Outcome Event BootFailure _ _).result with
  | error stop =>
    rw [Run.bind_of_error hfetched]
    exact ⟨[], (List.append_nil _).symm, .inl rfl⟩
  | ok found =>
    rw [Run.bind_of_ok hfetched]
    refine ⟨_, rfl, ?_⟩
    rw [Run.calls_bind_of_silent]
    · rcases calls_recordPlan found.config found.origin found.plan
        (fetch w : Outcome Event BootFailure _ _).state with hnone | ⟨hkind, data, hput⟩
      · exact .inl hnone
      · exact .inr ⟨found, hfetched, hkind, data, hput⟩
    · intro _
      refine Run.silent_of_calling ?_
      refine Run.Calling.get.bind fun _ => Run.Calling.bind ?_ fun _ => .pure
      refine (Run.Calling.get.bind fun _ => .ofExcept).onPart.bind fun firm => ?_
      exact Run.Calling.mapNotices.bind fun _ => .pure

/-- A boot that does not fail jumps, waits forever, or is cut short by a storage that claims too
much. -/
theorem reaches_attempt (payloads : Payloads) (was : Option (UInt32 × Option UInt32)) :
    Run.Reaches ⟨¬Storage.Truthful σ, True⟩ (World.With fun m => m.jumped = was)
      (World.With (HandOver.JustJumped was))
      (attempt payloads : Run Event BootFailure (World σ κ δ) Unit) := by
  refine .bind (Q := fun _ => True) (fun w hw => ?_) fun prepared _ =>
    reaches_handOver True.intro _ _ was
  have hprepare : Run.Ensures ⟨¬Storage.Truthful σ, True⟩ (World.With w.machine.Untouched)
      (prepare payloads : Run Event BootFailure (World σ κ δ) _) fun _ => True :=
    ensures_prepare (Classical.em _) payloads
  obtain ⟨huntouched, hends⟩ := hprepare w (.refl w.machine)
  exact ⟨huntouched.jumped.trans hw, hends⟩

theorem attempt_spec (payloads : Payloads) (w : World σ κ δ) :
    ∃ later,
      (attempt payloads w : Outcome Event BootFailure _ _).events =
          (fetch w : Outcome Event BootFailure _ _).events ++ later ∧
        (Event.calls later = [] ∨ WrittenAfter w (Event.calls later)) := by
  obtain ⟨later, hevents, hwritten⟩ := prepare_spec payloads w
  unfold attempt
  cases hprepared : (prepare payloads w : Outcome Event BootFailure _ _).result with
  | error stop =>
    rw [Run.bind_of_error hprepared]
    exact ⟨later, hevents, hwritten⟩
  | ok prepared =>
    obtain ⟨plan, rebuilt⟩ := prepared
    rw [Run.bind_of_ok hprepared, hevents, List.append_assoc]
    refine ⟨_, rfl, ?_⟩
    have hsilent := silent_handOver (σ := σ) (κ := κ) (δ := δ) plan rebuilt
    rw [Event.calls_append]
    dsimp only
    rw [hsilent, List.append_nil]
    exact hwritten

/-! ## The whole boot -/

/-- How a boot ends, with the calls it makes after everything else. -/
def EndsWith (start final : Machine) (last : List Call) : Ending → Prop
  | .jumped => HandOver.JustJumped start.jumped final ∧ last = []
  | .poweredOff => final.jumped = start.jumped ∧ ∃ err, last = [.drawFailure err, .shutDown]
  | .stuck => final.jumped = start.jumped ∧ (last = [] ∨ ∃ err, last = [.drawFailure err])
  | .outOfRange => final.jumped = start.jumped ∧ last = []

theorem run_of_jumped {payloads : Payloads} {w : World σ κ δ}
    (h : (attempt payloads w : Outcome Event BootFailure _ _).result = .ok ()) :
    run payloads w = (.jumped, (attempt payloads w : Outcome Event BootFailure _ _).state,
      (attempt payloads w : Outcome Event BootFailure _ _).events) := by
  unfold run
  dsimp only
  rw [h]

theorem run_of_stopped {payloads : Payloads} {w : World σ κ δ} {stop : Stop BootFailure}
    (h : (attempt payloads w : Outcome Event BootFailure _ _).result = .error stop)
    (hstop : ∀ err, stop ≠ .failed err) :
    run payloads w = (endingOf stop, (attempt payloads w : Outcome Event BootFailure _ _).state,
      (attempt payloads w : Outcome Event BootFailure _ _).events) := by
  unfold run
  dsimp only
  rw [h]
  cases stop with
  | failed err => exact absurd rfl (hstop err)
  | outOfRange => rfl
  | stuck => rfl

theorem run_of_failed {payloads : Payloads} {w : World σ κ δ} {err : BootFailure}
    (h : (attempt payloads w : Outcome Event BootFailure _ _).result = .error (.failed err)) :
    let booted := (attempt payloads w : Outcome Event BootFailure _ _)
    let shown := drawFailure err booted.state.machine
    run payloads w =
      (closingOf shown.result, { booted.state with machine := shown.state },
        booted.events ++ shown.events) := by
  unfold run
  simp only [h]

/-- The boot ended with the events in `last`, which come after those of the attempt. -/
structure Ended (payloads : Payloads) (start : World σ κ δ) (last : List Event) : Prop where
  events : (run payloads start).2.2 =
    (attempt payloads start : Outcome Event BootFailure _ _).events ++ last
  ends : EndsWith start.machine (run payloads start).2.1.machine (Event.calls last)
    (run payloads start).1
  /-- Only a storage that claims too much cuts a boot short. -/
  cut : (run payloads start).1 = .outOfRange → ¬Storage.Truthful σ

theorem ended_of_failed {payloads : Payloads} {start : World σ κ δ} {err : BootFailure}
    (h : (attempt payloads start : Outcome Event BootFailure _ _).result = .error (.failed err))
    (hkept : (attempt payloads start : Outcome Event BootFailure _ _).state.machine.jumped =
      start.machine.jumped) :
    ∃ last, Ended payloads start last := by
  have hrun := run_of_failed h
  obtain ⟨huntouched, hend⟩ :=
    drawFailure_spec err (attempt payloads start : Outcome Event BootFailure _ _).state.machine
  have hjumped := huntouched.jumped.trans hkept
  refine ⟨(drawFailure err
    (attempt payloads start : Outcome Event BootFailure _ _).state.machine).events, ?_⟩
  rcases hend with ⟨hok, hcalls⟩ | ⟨hstuck, hcalls⟩
  · dsimp only at hrun
    rw [hok] at hrun
    constructor
    · rw [hrun]
    · rw [hrun, hcalls]
      exact ⟨hjumped, err, rfl⟩
    · rw [hrun]
      exact nofun
  · dsimp only at hrun
    rw [hstuck] at hrun
    constructor
    · rw [hrun]
    · rw [hrun, hcalls]
      exact ⟨hjumped, .inr ⟨err, rfl⟩⟩
    · rw [hrun]
      exact nofun

theorem run_ended (payloads : Payloads) (start : World σ κ δ) :
    ∃ last, Ended payloads start last := by
  have hreached := reaches_attempt payloads start.machine.jumped start rfl
  cases hresult : (attempt payloads start : Outcome Event BootFailure _ _).result with
  | ok _ =>
    rw [hresult] at hreached
    have hrun := run_of_jumped hresult
    refine ⟨[], ?_, ?_, ?_⟩
    · rw [hrun, List.append_nil]
    · rw [hrun]
      exact ⟨hreached, rfl⟩
    · rw [hrun]
      exact nofun
  | error stop =>
    rw [hresult] at hreached
    obtain ⟨hkept, hpermitted⟩ := hreached
    cases stop with
    | failed err => exact ended_of_failed hresult hkept
    | outOfRange =>
      have hrun := run_of_stopped hresult nofun
      refine ⟨[], ?_, ?_, fun _ => hpermitted⟩
      · rw [hrun, List.append_nil]
      · rw [hrun]
        exact ⟨hkept, rfl⟩
    | stuck =>
      have hrun := run_of_stopped hresult nofun
      refine ⟨[], ?_, ?_, ?_⟩
      · rw [hrun, List.append_nil]
      · rw [hrun]
        exact ⟨hkept, .inl rfl⟩
      · rw [hrun]
        exact nofun

theorem untouched_of_failed {payloads : Payloads} {start : World σ κ δ} {err : BootFailure}
    (h : (prepare payloads start : Outcome Event BootFailure _ _).result = .error (.failed err)) :
    start.machine.Untouched (run payloads start).2.1.machine := by
  have hprepare : Run.Ensures ⟨¬Storage.Truthful σ, True⟩ (World.With start.machine.Untouched)
      (prepare payloads : Run Event BootFailure (World σ κ δ) _) fun _ => True :=
    ensures_prepare (Classical.em _) payloads
  have hprepared := (hprepare start (.refl start.machine)).1
  have hattempt : (attempt payloads start : Outcome Event BootFailure _ _) =
      ⟨.error (.failed err), (prepare payloads start : Outcome Event BootFailure _ _).state,
        (prepare payloads start : Outcome Event BootFailure _ _).events⟩ :=
    Run.bind_of_error h _
  rw [run_of_failed (by rw [hattempt]), hattempt]
  exact hprepared.trans (drawFailure_spec err _).1

end Boot
end BootStage
