import BootStage.Proofs.BootOrder
import BootStage.Proofs.BootsAlike
import BootStage.Proofs.Decisions
import BootStage.Proofs.JumpingBoots
import BootStage.Proofs.MemoryWords
/-!
# The inputs of a relaunch

A relaunch goes by what was recorded: neither the buttons held nor the state of the display change
what it calls, what it copies or what it is handed over with. The cells these are read from may be
told apart in the end all the same, unless something was copied over them.
-/

namespace BootStage

namespace Cell

def OfInputs (a : UInt32) : Prop :=
  Spans pad a ∨ Spans display a

instance (a : UInt32) : Decidable (OfInputs a) :=
  inferInstanceAs (Decidable (_ ∨ _))

theorem range_of_ofInputs {a : UInt32} (h : OfInputs a) :
    0x10141200 ≤ a.toNat ∧ a.toNat < 0x10146004 := by
  have hpad : pad.toNat = 0x10146000 := rfl
  have hdisplay : display.toNat = 0x10141200 := rfl
  unfold OfInputs at h
  rw [spans_iff (by omega), spans_iff (by omega)] at h
  omega

def AboveInputs (cell : UInt32) : Prop :=
  0x10146004 ≤ cell.toNat ∧ cell.toNat + 4 ≤ 0x100000000

instance (cell : UInt32) : Decidable (AboveInputs cell) :=
  inferInstanceAs (Decidable (_ ∧ _))

theorem not_ofInputs_of_spans {cell a : UInt32} (h : AboveInputs cell) (ha : Spans cell a) :
    ¬OfInputs a := by
  intro hin
  have hrange := range_of_ofInputs hin
  rw [spans_iff h.2] at ha
  unfold AboveInputs at h
  omega

end Cell

namespace Machine

def Copied (copies : List (UInt32 × Nat)) (a : UInt32) : Prop :=
  ∃ copy ∈ copies, (a - copy.1).toNat < copy.2

/-- The machines differ at most in the buttons still to be latched, and in those bytes of the pad
and of the display's power that none of the copies in `made` was laid over. -/
structure AlikeUnder (made : List (UInt32 × Nat)) (m m' : Machine) : Prop where
  memory : ∀ a, ¬Cell.OfInputs a ∨ Copied made a → m'.memory.byte a = m.memory.byte a
  copies : m'.copies = m.copies
  requests : m'.requests = m.requests
  flushes : m'.flushes = m.flushes
  msAsleep : m'.msAsleep = m.msAsleep
  jumped : m'.jumped = m.jumped

variable {made : List (UInt32 × Nat)} {m m' : Machine}

theorem AlikeUnder.word (h : m.AlikeUnder made m') {cell : UInt32} (hcell : Cell.AboveInputs cell) :
    m'.word cell = m.word cell :=
  Memory.word_congr fun _ ha => h.memory _ (.inl (Cell.not_ofInputs_of_spans hcell ha))

theorem AlikeUnder.isReady (h : m.AlikeUnder made m') : m'.isReady = m.isReady := by
  unfold Machine.isReady
  rw [h.word (by decide)]

/-! ## Steps -/

theorem AlikeUnder.flush (h : m.AlikeUnder made m') : m.flush.AlikeUnder made m'.flush :=
  ⟨h.memory, h.copies, h.requests, congrArg (· + 1) h.flushes, h.msAsleep, h.jumped⟩

theorem AlikeUnder.jump (h : m.AlikeUnder made m') (entry : UInt32) (args : Option UInt32) :
    (m.jump entry args).AlikeUnder made (m'.jump entry args) :=
  ⟨h.memory, h.copies, h.requests, h.flushes, h.msAsleep, rfl⟩

theorem AlikeUnder.setWord (h : m.AlikeUnder made m') (cell value : UInt32) :
    (m.setWord cell value).AlikeUnder made (m'.setWord cell value) := by
  have hstored : ∀ a, ¬Cell.OfInputs a ∨ Copied made a →
      (m'.memory.setWord cell value).byte a = (m.memory.setWord cell value).byte a :=
    fun a ha => Memory.byte_setWord_congr (h.memory a ha) cell value
  by_cases hposts : cell = Cell.operation ∧ value ≠ Operation.ready.code
  · obtain ⟨rfl, hcode⟩ := hposts
    -- The second core reads its request from cells above those of the inputs.
    have hpending : pending (m'.memory.setWord Cell.operation value) value =
        pending (m.memory.setWord Cell.operation value) value := by
      refine pending_congr value fun a ha => hstored a (.inl fun hin => ?_)
      have hrange := Cell.range_of_ofInputs hin
      have hblock : Cell.parameters.toNat = 0x1FFFF000 := rfl
      unfold Cell.InParameters at ha
      omega
    rw [setWord_operation hcode, setWord_operation hcode, h.requests, hpending]
    exact ⟨fun a ha => Memory.byte_setWord_congr (hstored a ha) _ _, h.copies, rfl, h.flushes,
      h.msAsleep, h.jumped⟩
  · rw [setWord_of_quiet hposts, setWord_of_quiet hposts]
    exact ⟨hstored, h.copies, h.requests, h.flushes, h.msAsleep, h.jumped⟩

theorem AlikeUnder.copy (h : m.AlikeUnder made m') (address : UInt32) (data : Bytes) :
    (m.copy address data).AlikeUnder (made ++ [(address, data.size)]) (m'.copy address data) := by
  constructor
  case memory =>
    intro a ha
    show (m'.memory.lay address data).byte a = (m.memory.lay address data).byte a
    rw [Memory.byte_lay, Memory.byte_lay]
    -- Under the new copy both hold its data, elsewhere what they held.
    by_cases hunder : (a - address).toNat < data.size
    · rw [if_pos hunder, if_pos hunder]
    · rw [if_neg hunder, if_neg hunder]
      refine h.memory a (ha.imp_right ?_)
      rintro ⟨copy, hcopy, hover⟩
      rcases List.mem_append.1 hcopy with hcopy | hcopy
      · exact ⟨copy, hcopy, hover⟩
      · obtain rfl := List.mem_singleton.1 hcopy
        exact absurd hover hunder
  case copies => exact congrArg (· ++ [(address, data.size)]) h.copies
  case requests => exact h.requests
  case flushes => exact h.flushes
  case msAsleep => exact h.msAsleep
  case jumped => exact h.jumped

def AlikeSince (before : List (UInt32 × Nat)) (m m' : Machine) : Prop :=
  ∃ made, m.copies = before ++ made ∧ m.AlikeUnder made m'

variable {before : List (UInt32 × Nat)}

theorem AlikeSince.setWord (h : AlikeSince before m m') (cell value : UInt32) :
    AlikeSince before (m.setWord cell value) (m'.setWord cell value) := by
  obtain ⟨made, hcopies, halike⟩ := h
  exact ⟨made, (m.copies_setWord cell value).trans hcopies, halike.setWord cell value⟩

theorem AlikeSince.flush (h : AlikeSince before m m') : AlikeSince before m.flush m'.flush := by
  obtain ⟨made, hcopies, halike⟩ := h
  exact ⟨made, hcopies, halike.flush⟩

theorem AlikeSince.copy (h : AlikeSince before m m') (address : UInt32) (data : Bytes) :
    AlikeSince before (m.copy address data) (m'.copy address data) := by
  obtain ⟨made, hcopies, halike⟩ := h
  refine ⟨made ++ [(address, data.size)], ?_, halike.copy address data⟩
  calc m.copies ++ [(address, data.size)]
      = (before ++ made) ++ [(address, data.size)] := by rw [hcopies]
    _ = before ++ (made ++ [(address, data.size)]) := List.append_assoc _ _ _

theorem AlikeSince.setParameters (h : AlikeSince before m m') (words : List UInt32) :
    AlikeSince before (m.setParameters words) (m'.setParameters words) := by
  unfold Machine.setParameters
  generalize words.zipIdx = cells
  induction cells generalizing m m' with
  | nil => exact h
  | cons cell rest ih => exact ih (h.setWord _ _)

/-! ## The hand-over -/

variable {ε : Type}

theorem alike_awaitReady :
    RunsAlike (AlikeSince before) (AlikeSince before)
      (awaitReady : Run Notice ε Machine Unit) awaitReady := by
  apply Run.Alike.get_bind
  rintro m m' ⟨made, -, halike⟩
  rw [halike.isReady]
  exact .ite (fun _ => .pure) fun _ => .stuck

theorem alike_post (operation : Operation) (words : List UInt32) :
    RunsAlike (AlikeSince before) (AlikeSince before)
      (post operation words : Run Notice ε Machine Unit) (post operation words) := by
  apply alike_awaitReady.bind
  intro _
  refine Run.Alike.bind (.modify fun m m' h => (h.setParameters words).flush) fun _ => ?_
  exact Run.Alike.emit.bind fun _ => .modify fun m m' h => (h.setWord _ _).flush

theorem alike_place (index : Nat) (address : UInt32) (data : Bytes) :
    RunsAlike (AlikeSince before) (AlikeSince before)
      (HandOver.place index address data : Run Notice ε Machine Unit)
      (HandOver.place index address data) :=
  Run.Alike.emit.bind fun _ => .modify fun _ _ h => h.copy address data

theorem alike_launch (firm : Firm) (plan : Plan) :
    RunsAlike (AlikeSince before) (AlikeSince before)
      (HandOver.launch firm plan : Run Notice ε Machine Unit) (HandOver.launch firm plan) := by
  have hcell : RunsAlike (AlikeSince before) (AlikeSince before)
      (HandOver.releaseCell plan.kind : Run Notice ε Machine UInt32)
      (HandOver.releaseCell plan.kind) := by
    cases plan.kind with
    | cold => exact (alike_post _ _).bind fun _ => alike_awaitReady.bind fun _ => .pure
    | relaunch => exact .pure
  have hrelease : RunsAlike (AlikeSince before) (AlikeSince before)
      (HandOver.release firm plan : Run Notice ε Machine Unit) (HandOver.release firm plan) := by
    apply (Run.Alike.forM fun s => alike_place _ _ _).bind
    intro _
    refine hcell.bind fun cell => ?_
    exact Run.Alike.bind (.modify fun m m' h => (h.setWord cell _).flush) fun _ => .emit
  apply hrelease.bind
  intro _
  refine .modify ?_
  rintro m m' ⟨made, hcopies, halike⟩
  exact ⟨made, hcopies, halike.jump _ _⟩

/-! ## A relaunch -/

/-- The machines ask for a relaunch, have made the copies in `before`, and differ at most in their
inputs. -/
def RelaunchAlike (before : List (UInt32 × Nat)) (m m' : Machine) : Prop :=
  m.memory.byte Cell.launchFlag ≠ 0 ∧ m.copies = before ∧ m.AlikeUnder [] m'

end Machine

theorem Machine.bootAlike_of_relaunch (before : List (UInt32 × Nat)) :
    BootAlike (RelaunchAlike before) (AlikeSince before) := by
  have hbyte : ∀ {m m' : Machine}, m.AlikeUnder [] m' → ∀ {a}, ¬Cell.OfInputs a →
      m'.memory.byte a = m.memory.byte a := fun h a ha => h.memory a (.inl ha)
  constructor
  case decided =>
    rintro m m' config ⟨hwarm, -, h⟩
    apply Plan.ofInputs_congr hwarm
    constructor
    case launchFlag => exact hbyte h (by decide)
    case gbaMarker => exact hbyte h (by decide)
    case model =>
      show m'.model = m.model
      unfold Machine.model
      rw [hbyte h (by decide)]
    case fields => exact fun _ _ => rfl
  case shown =>
    rintro m m' config plan delay ⟨hwarm, -, -⟩ hplan hdelay
    have hshown := (Plan.splash_of_ofInputs hplan).1 (by rw [hdelay]; rfl)
    exact absurd hshown.1 hwarm
  case unit =>
    rintro m m' ⟨-, -, h⟩
    unfold Machine.isDevelopmentUnit
    rw [hbyte h (by decide)]
  case untouched =>
    rintro m m' ⟨-, hcopies, h⟩
    exact ⟨[], hcopies.trans (List.append_nil _).symm, h⟩
  case placed => exact alike_place
  case launched => exact alike_launch

namespace Boot

variable {σ κ δ : Type} [Storage σ] [Crypto κ] [Card δ]

omit [Crypto κ] [Card δ] in
theorem warm_of_inputs {w : World σ κ δ} (hwarm : w.machine.memory.byte Cell.launchFlag ≠ 0)
    {inputs : Inputs} (h : inputs? w = some inputs) : inputs.launchFlag ≠ 0 := by
  unfold inputs? at h
  split at h
  · obtain rfl := Option.some.inj h
    exact hwarm
  · cases h

/-- A relaunch neither shows the splash nor writes a file. -/
def Quiet (c : Call) : Prop :=
  c ≠ .drawSplash ∧ ∀ path data, c ≠ .putFile path data

theorem quiet_of_warm {w : World σ κ δ} (hwarm : w.machine.memory.byte Cell.launchFlag ≠ 0)
    (payloads : Payloads) {c : Call} (hc : c ∈ Event.calls (run payloads w).2.2) : Quiet c := by
  obtain ⟨later, last, h⟩ := run_callsOf payloads w
  cases h.madeBy hc with
  | splash inputs hinputs hshown => exact absurd hshown.1 (warm_of_inputs hwarm hinputs)
  | record found data hfound hcold =>
    obtain ⟨inputs, hinputs, hflag⟩ := inputs_of_cold hfound hcold
    exact absurd hflag (warm_of_inputs hwarm hinputs)
  | loading _ hload => exact ⟨fun hsplash => by simp [hsplash, Call.IsLoading] at hload,
      fun path data hwrite => by simp [hwrite, Call.IsLoading] at hload⟩
  | config | sector | failure | powerOff => exact ⟨nofun, nofun⟩

/-- Two relaunches, by what they came to, that had made the copies in `before`. -/
structure SameRelaunch (before : List (UInt32 × Nat))
    (ended ended' : Ending × World σ κ δ × List Event) : Prop where
  jumps : ended'.1 = .jumped ↔ ended.1 = .jumped
  /-- The copies, requests and arguments of a jump are the same, and so is what was copied. -/
  machine : ended.1 = .jumped → ∃ made, ended.2.1.machine.copies = before ++ made ∧
    ended.2.1.machine.AlikeUnder made ended'.2.1.machine
  entries : ended.1 = .jumped → ∀ cell, cell = Cell.stubEntry ∨ cell = Cell.relaunchEntry →
    ended'.2.1.machine.word cell = ended.2.1.machine.word cell
  calls : ended.1 = .jumped → Event.calls ended'.2.2 = Event.calls ended.2.2
  overruns : ended'.1 = .outOfRange ↔ ended.1 = .outOfRange
  fails : ∀ err, .drawFailure err ∈ Event.calls ended'.2.2 ↔
    .drawFailure err ∈ Event.calls ended.2.2
  quiet : ∀ c, c ∈ Event.calls ended.2.2 ∨ c ∈ Event.calls ended'.2.2 → Quiet c

omit [Storage σ] [Crypto κ] [Card δ] in
theorem SameRelaunch.of_no_jump {before : List (UInt32 × Nat)}
    {ended ended' : Ending × World σ κ δ × List Event} (h : ended.1 ≠ .jumped)
    (h' : ended'.1 ≠ .jumped) (overruns : ended'.1 = .outOfRange ↔ ended.1 = .outOfRange)
    (fails : ∀ err, .drawFailure err ∈ Event.calls ended'.2.2 ↔
      .drawFailure err ∈ Event.calls ended.2.2)
    (quiet : ∀ c, c ∈ Event.calls ended.2.2 ∨ c ∈ Event.calls ended'.2.2 → Quiet c) :
    SameRelaunch before ended ended' where
  jumps := iff_of_false h' h
  machine hjumped := absurd hjumped h
  entries hjumped := absurd hjumped h
  calls hjumped := absurd hjumped h
  overruns := overruns
  fails := fails
  quiet := quiet

/-- Whatever is pressed while an error is shown, it is that error. -/
theorem closing_of_drawFailure (err : BootFailure) (m : Machine) :
    (closingOf (drawFailure err m).result = .poweredOff ∨
        closingOf (drawFailure err m).result = .stuck) ∧
      ∀ other, .drawFailure other ∈ Event.calls (drawFailure err m).events ↔ other = err := by
  rcases (drawFailure_spec err m).2 with ⟨hresult, hcalls⟩ | ⟨hresult, hcalls⟩
  · simp [hresult, hcalls, closingOf]
  · simp [hresult, hcalls, closingOf, endingOf]

/-- Two relaunches that differ at most in the buttons held, now and later, and in the power of the
display come to the same jump or the same failure. -/
theorem relaunch_ignores_inputs (payloads : Payloads) {w w' : World σ κ δ}
    (hintake : w'.intake = w.intake) (hcard : w'.card = w.card)
    (hwarm : w.machine.memory.byte Cell.launchFlag ≠ 0)
    (hmachine : w.machine.AlikeUnder [] w'.machine) :
    SameRelaunch w.machine.copies (run payloads w) (run payloads w') := by
  have hwarm' : w'.machine.memory.byte Cell.launchFlag ≠ 0 := by
    rw [hmachine.memory _ (.inl (by decide))]
    exact hwarm
  have hquiet : ∀ c, c ∈ Event.calls (run payloads w).2.2 ∨
      c ∈ Event.calls (run payloads w').2.2 → Quiet c := fun c hc =>
    hc.elim (quiet_of_warm hwarm payloads) (quiet_of_warm hwarm' payloads)
  have hstart : World.Alike Eq (Machine.RelaunchAlike w.machine.copies) w w' :=
    ⟨by rw [hintake]; exact ⟨rfl, rfl, rfl⟩, hcard, hwarm, rfl, hmachine⟩
  obtain ⟨hresult, hcalls, hstate⟩ := alike_attempt (Storage.answerAlike_eq Config.path)
    (Machine.bootAlike_of_relaunch w.machine.copies) payloads w w' hstart
  change Event.calls _ = Event.calls _ at hcalls
  cases hend : (attempt payloads w : Outcome Event BootFailure _ _).result with
  | ok _ =>
    have hrun := run_of_jumped hend
    have hrun' := run_of_jumped (hresult.trans hend)
    rw [hrun, hrun'] at hquiet ⊢
    obtain ⟨made, hcopies, halike⟩ := hstate.machine
    constructor
    case jumps => exact Iff.rfl
    case machine => exact fun _ => ⟨made, hcopies, halike⟩
    case entries =>
      rintro - cell (rfl | rfl)
      · exact halike.word (by decide)
      · exact halike.word (by decide)
    case calls => exact fun _ => hcalls
    case overruns => exact Iff.rfl
    case fails =>
      intro err
      rw [hcalls]
    case quiet => exact hquiet
  | error stop =>
    cases stop with
    | outOfRange | stuck =>
      rw [run_of_stopped hend nofun, run_of_stopped (hresult.trans hend) nofun] at hquiet ⊢
      exact .of_no_jump nofun nofun Iff.rfl (fun err => by rw [hcalls]) hquiet
    | failed err =>
      have hrun := run_of_failed hend
      have hrun' := run_of_failed (hresult.trans hend)
      dsimp only at hrun hrun'
      rw [hrun, hrun'] at hquiet ⊢
      obtain ⟨hending, hshown⟩ := closing_of_drawFailure err
        (attempt payloads w : Outcome Event BootFailure _ _).state.machine
      obtain ⟨hending', hshown'⟩ := closing_of_drawFailure err
        (attempt payloads w' : Outcome Event BootFailure _ _).state.machine
      refine .of_no_jump ?_ ?_ ?_ (fun other => ?_) hquiet
      · rcases hending with h | h <;> simp [h]
      · rcases hending' with h | h <;> simp [h]
      · rcases hending with h | h <;> rcases hending' with h' | h' <;> simp [h, h']
      · simp only [Event.calls_append, List.mem_append, hcalls, hshown, hshown']

open BareFirmware in
/-- A console that was asked for its system firmware jumps there, off and untouched as well as
switched on with buttons held. -/
theorem relaunch_ignores_inputs_jumping :
    let asked := Machine.idle.setByte Cell.launchFlag Plan.digitZero
    let touched := { (asked.setByte Cell.display 0).hold .recovery with queue := [.a, .none] }
    (run payloads (consoleOn asked filler)).1 = .jumped ∧
      (run payloads (consoleOn touched filler)).1 = .jumped ∧
      SameRelaunch [] (run payloads (consoleOn asked filler))
        (run payloads (consoleOn touched filler)) := by
  intro asked touched
  have hhold : touched = { asked with
      memory := (asked.memory.lay Cell.display #[0]).setWord Cell.pad
        (~~~Buttons.recovery.bits &&& Buttons.known)
      queue := [.a, .none] } := by
    simp only [touched, Machine.hold, Machine.setByte]
    rw [Machine.setWord_of_quiet (by decide)]
  have halike : asked.AlikeUnder [] touched := by
    rw [hhold]
    refine ⟨?_, rfl, rfl, rfl, rfl, rfl⟩
    rintro a (ha | ⟨_, hnone, -⟩)
    · have hpad : ¬Cell.Spans Cell.pad a := fun h => ha (.inl h)
      have hdisplay : ¬(a - Cell.display).toNat < 1 := fun h =>
        ha (.inr (Nat.lt_of_lt_of_le h (by decide)))
      dsimp only
      rw [Memory.byte_setWord, if_neg hpad, Memory.byte_lay]
      exact if_neg hdisplay
    · cases hnone
  have hwarm : asked.memory.byte Cell.launchFlag ≠ 0 := by decide +kernel
  have hdecided : Plan.ofInputs (asked.inputs config) =
      .ok ⟨.relaunch, .native, .off, .old, none, .sys, .sys, some Title.native.idLow, false⟩ :=
    Run.eq_ok_of_toOption (by decide +kernel)
  have hjumped : (run payloads (consoleOn asked filler)).1 = .jumped :=
    jumps_of_plan Array.size_replicate (by decide +kernel) (by decide +kernel) hdecided
      ⟨rfl, rfl, rfl, rfl⟩ rfl rfl rfl
  obtain ⟨hintake, hcard⟩ := consoleOn_same asked touched filler
  have hsame : SameRelaunch [] (run payloads (consoleOn asked filler))
      (run payloads (consoleOn touched filler)) :=
    relaunch_ignores_inputs payloads hintake hcard hwarm halike
  exact ⟨hjumped, hsame.jumps.2 hjumped, hsame⟩

end Boot
end BootStage
