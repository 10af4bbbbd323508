import BootStage.Proofs.BootEndings
/-!
# The order of a boot

A boot ends in one jump, with no error shown, or in one error shown and the power off, with no
jump. It reads its configuration first, and everything that lasts comes after everything that
can be decided: the configuration is written after the firmware was loaded, the machine is
touched after the firmware was patched.
-/

namespace BootStage

variable {σ κ δ : Type} [Storage σ] [Crypto κ] [Card δ]

def Call.isWrite : Call → Bool
  | .putFile _ _ => true
  | _ => false

namespace Boot

/-! ## What each call is made for -/

inductive MadeBy (start : World σ κ δ) : Call → Prop where
  | config : MadeBy start (.getFile Config.path (Config.fileSize + 1))
  | splash (inputs : Inputs) (hinputs : inputs? start = some inputs)
      (hshown : Plan.showsSplash inputs) : MadeBy start .drawSplash
  | sector (inputs : Inputs) (hinputs : inputs? start = some inputs)
      (hwanted : Plan.wantsImage inputs) (sector : UInt32) : MadeBy start (.getSector sector)
  | loading (c : Call) (h : c.IsLoading) : MadeBy start c
  | record (found : Fetched) (data : Bytes)
      (hfound : (fetch start : Outcome Event BootFailure _ _).result = .ok found)
      (hcold : found.plan.kind = .cold) : MadeBy start (.putFile Config.path data)
  | failure (err : BootFailure) : MadeBy start (.drawFailure err)
  | powerOff : MadeBy start .shutDown

/-- A call that neither writes nor ends a boot. -/
def Fetching (c : Call) : Prop :=
  c.isWrite = false ∧ (∀ err, c ≠ .drawFailure err) ∧ c ≠ .shutDown

omit [Storage σ] [Crypto κ] [Card δ] in
theorem fetching_of_isLoading {c : Call} (h : c.IsLoading) : Fetching c := by
  cases c with
  | getFile | readTitle | decryptTitle | checkSection | decryptArm9 => exact ⟨rfl, nofun, nofun⟩
  | _ => exact h.elim

theorem madeBy_of_fetch {start : World σ κ δ} {c : Call}
    (hc : c ∈ Event.calls (fetch start : Outcome Event BootFailure _ _).events) :
    MadeBy start c ∧ Fetching c := by
  obtain ⟨calls, hcalls, hstages⟩ := fetch_spec start
  rw [hcalls] at hc
  rcases List.mem_cons.1 hc with rfl | hc
  · exact ⟨.config, rfl, nofun, nofun⟩
  cases hinputs : inputs? start with
  | none =>
    -- A boot without inputs stops at its configuration.
    rw [hinputs] at hstages
    obtain ⟨rfl, -⟩ := hstages
    cases hc
  | some inputs =>
    rw [hinputs] at hstages
    obtain ⟨⟨splash, sectors, loads, rfl, hsplash, hshown, hsectors, hloads⟩, -⟩ := hstages
    rcases List.mem_append.1 hc with hc | hc
    · obtain rfl := hsplash c hc
      exact ⟨.splash inputs hinputs (hshown.1 hc), rfl, nofun, nofun⟩
    rcases List.mem_append.1 hc with hc | hc
    · obtain ⟨⟨sector, rfl⟩, hwanted⟩ := hsectors c hc
      exact ⟨.sector inputs hinputs hwanted sector, rfl, nofun, nofun⟩
    · exact ⟨.loading c (hloads c hc), fetching_of_isLoading (hloads c hc)⟩

theorem drawSplash_of_inputs {start : World σ κ δ} {inputs : Inputs}
    (hinputs : inputs? start = some inputs) (hshown : Plan.showsSplash inputs) :
    .drawSplash ∈ Event.calls (fetch start : Outcome Event BootFailure _ _).events := by
  obtain ⟨calls, hcalls, hstages⟩ := fetch_spec start
  rw [hinputs] at hstages
  obtain ⟨⟨splash, sectors, loads, rfl, -, hsplash, -, -⟩, -⟩ := hstages
  rw [hcalls]
  exact List.mem_cons_of_mem _ (List.mem_append_left _ (hsplash.2 hshown))

theorem inputs_of_cold {start : World σ κ δ} {found : Fetched}
    (hfound : (fetch start : Outcome Event BootFailure _ _).result = .ok found)
    (hcold : found.plan.kind = .cold) :
    ∃ inputs, inputs? start = some inputs ∧ inputs.launchFlag = 0 := by
  obtain ⟨calls, -, hstages⟩ := fetch_spec start
  cases hinputs : inputs? start with
  | none =>
    rw [hinputs] at hstages
    exact absurd hfound (hstages.2 found)
  | some inputs =>
    rw [hinputs] at hstages
    exact ⟨inputs, rfl, (hstages.2 found hfound).1 hcold⟩

/-! ## The calls of a boot -/

/-- The calls of a boot: those that fetch its firmware, those of its record, and its last ones. -/
structure CallsOf (payloads : Payloads) (start : World σ κ δ) (later last : List Call) :
    Prop where
  calls : Event.calls (run payloads start).2.2 =
    Event.calls (fetch start : Outcome Event BootFailure _ _).events ++ (later ++ last)
  record : later = [] ∨ WrittenAfter start later
  ends : EndsWith start.machine (run payloads start).2.1.machine last (run payloads start).1

theorem run_callsOf (payloads : Payloads) (start : World σ κ δ) :
    ∃ later last, CallsOf payloads start later last := by
  obtain ⟨later, hattempt, hrecord⟩ := attempt_spec payloads start
  obtain ⟨last, hrun⟩ := run_ended payloads start
  refine ⟨Event.calls later, Event.calls last, ?_, hrecord, hrun.ends⟩
  rw [hrun.events, hattempt, List.append_assoc, Event.calls_append, Event.calls_append]

namespace CallsOf

variable {payloads : Payloads} {start : World σ κ δ} {later last : List Call}

theorem record_mem (h : CallsOf payloads start later last) {c : Call} (hc : c ∈ later) :
    MadeBy start c ∧ ∃ data, c = .putFile Config.path data := by
  rcases h.record with rfl | ⟨found, hfound, hcold, data, rfl⟩
  · cases hc
  · obtain rfl := List.mem_singleton.1 hc
    exact ⟨.record found data hfound hcold, data, rfl⟩

omit [Storage σ] [Crypto κ] [Card δ] in
theorem last_mem {start final : Machine} {ending : Ending} {c : Call}
    (h : EndsWith start final last ending) (hc : c ∈ last) :
    (∃ err, c = .drawFailure err) ∨ c = .shutDown := by
  cases ending with
  | jumped | outOfRange =>
    rw [h.2] at hc
    cases hc
  | poweredOff =>
    obtain ⟨-, err, rfl⟩ := h
    rcases List.mem_cons.1 hc with hshown | hoff
    · exact .inl ⟨err, hshown⟩
    · exact .inr (List.mem_singleton.1 hoff)
  | stuck =>
    rcases h.2 with rfl | ⟨err, rfl⟩
    · cases hc
    · exact .inl ⟨err, List.mem_singleton.1 hc⟩

theorem madeBy (h : CallsOf payloads start later last) {c : Call}
    (hc : c ∈ Event.calls (run payloads start).2.2) : MadeBy start c := by
  rw [h.calls] at hc
  rcases List.mem_append.1 hc with hc | hc
  · exact (madeBy_of_fetch hc).1
  rcases List.mem_append.1 hc with hc | hc
  · exact (h.record_mem hc).1
  · rcases last_mem h.ends hc with ⟨err, rfl⟩ | rfl
    · exact .failure err
    · exact .powerOff

theorem not_closing (h : CallsOf payloads start later last) {c : Call}
    (hc : c ∈ Event.calls (fetch start : Outcome Event BootFailure _ _).events ++ later) :
    (∀ err, c ≠ .drawFailure err) ∧ c ≠ .shutDown := by
  rcases List.mem_append.1 hc with hc | hc
  · exact (madeBy_of_fetch hc).2.2
  · obtain ⟨-, data, rfl⟩ := h.record_mem hc
    exact ⟨nofun, nofun⟩

theorem writes (h : CallsOf payloads start later last) :
    ((Event.calls (run payloads start).2.2).filter Call.isWrite).length ≤ 1 := by
  have hfetch : (Event.calls (fetch start : Outcome Event BootFailure _ _).events).filter
      Call.isWrite = [] :=
    List.filter_eq_nil_iff.2 fun c hc hwrite => by
      rw [(madeBy_of_fetch hc).2.1] at hwrite
      cases hwrite
  have hlast : last.filter Call.isWrite = [] :=
    List.filter_eq_nil_iff.2 fun c hc hwrite => by
      rcases last_mem h.ends hc with ⟨err, rfl⟩ | rfl <;> cases hwrite
  -- Fetching and the last calls write nothing, so the writes are those of the record.
  rw [h.calls, List.filter_append, List.filter_append, hfetch, hlast, List.append_nil,
    List.nil_append]
  refine Nat.le_trans (List.length_filter_le _ _) ?_
  rcases h.record with rfl | ⟨found, -, -, data, rfl⟩
  · exact Nat.zero_le _
  · exact Nat.le_refl _

end CallsOf

/-! ## The whole boot -/

/-- The run ended exactly one way. A jump was taken and no error shown; or one error was shown
before the power went off, and no jump was taken. A run that did not end has done neither. -/
def EndsOnce (start final : Machine) (calls : List Call) : Ending → Prop
  | .jumped =>
    HandOver.JustJumped start.jumped final ∧ (∀ err, .drawFailure err ∉ calls) ∧
      .shutDown ∉ calls
  | .poweredOff =>
    final.jumped = start.jumped ∧ ∃ before err, calls = before ++ [.drawFailure err, .shutDown] ∧
      (∀ other, .drawFailure other ∉ before) ∧ .shutDown ∉ before
  | .stuck | .outOfRange => final.jumped = start.jumped ∧ .shutDown ∉ calls

omit [Storage σ] [Crypto κ] [Card δ] in
theorem endsOnce_of_endsWith {start final : Machine} {before last : List Call} {ending : Ending}
    (h : EndsWith start final last ending)
    (hbefore : ∀ c ∈ before, (∀ err, c ≠ .drawFailure err) ∧ c ≠ .shutDown) :
    EndsOnce start final (before ++ last) ending := by
  have hshown : ∀ err, .drawFailure err ∉ before := fun err hmem => (hbefore _ hmem).1 err rfl
  have hoff : .shutDown ∉ before := fun hmem => (hbefore _ hmem).2 rfl
  cases ending with
  | jumped =>
    obtain ⟨hjumped, rfl⟩ := h
    rw [List.append_nil]
    exact ⟨hjumped, hshown, hoff⟩
  | poweredOff =>
    obtain ⟨hkept, err, rfl⟩ := h
    exact ⟨hkept, before, err, rfl, hshown, hoff⟩
  | stuck =>
    obtain ⟨hkept, rfl | ⟨err, rfl⟩⟩ := h
    · rw [List.append_nil]
      exact ⟨hkept, hoff⟩
    · refine ⟨hkept, fun hmem => ?_⟩
      rcases List.mem_append.1 hmem with hmem | hmem
      · exact hoff hmem
      · cases List.mem_singleton.1 hmem
  | outOfRange =>
    obtain ⟨hkept, rfl⟩ := h
    rw [List.append_nil]
    exact ⟨hkept, hoff⟩

/-- What a boot keeps to, from power-on to its end. -/
structure Orderly (payloads : Payloads) (start : World σ κ δ) : Prop where
  endsOnce : EndsOnce start.machine (run payloads start).2.1.machine
    (Event.calls (run payloads start).2.2) (run payloads start).1
  /-- No range outside a buffer is used, unless a storage claims more than fits its buffer. -/
  inRange : (run payloads start).1 = .outOfRange → ¬Storage.Truthful σ
  /-- The configuration is read before any other call. -/
  readsFirst : ∃ later, Event.calls (run payloads start).2.2 =
    .getFile Config.path (Config.fileSize + 1) :: later
  splash : .drawSplash ∈ Event.calls (run payloads start).2.2 ↔
    ∃ inputs, inputs? start = some inputs ∧ inputs.launchFlag = 0 ∧
      (inputs.displayOn ∨ inputs.config.get .splash ≠ 0)
  sectors : ∀ sector, .getSector sector ∈ Event.calls (run payloads start).2.2 →
    ∃ inputs, inputs? start = some inputs ∧ ∃ plan, Plan.ofInputs inputs = .ok plan ∧
      ∃ slot, plan.nand = .emu slot ∨ plan.source = .emu slot
  writesOnce : ((Event.calls (run payloads start).2.2).filter Call.isWrite).length ≤ 1
  /-- The configuration file is written on a cold boot, once its firmware is loaded. -/
  writesLate : ∀ path data, .putFile path data ∈ Event.calls (run payloads start).2.2 →
    path = Config.path ∧
      (∃ inputs, inputs? start = some inputs ∧ inputs.launchFlag = 0) ∧
      (∃ found, (fetch start : Outcome Event BootFailure _ _).result = .ok found) ∧
      (∃ later, Event.calls (run payloads start).2.2 =
        Event.calls (fetch start : Outcome Event BootFailure _ _).events ++ later) ∧
      ∀ other bytes, .putFile other bytes ∉
        Event.calls (fetch start : Outcome Event BootFailure _ _).events
  /-- When deciding, loading or patching fails, nothing is done to the machine. -/
  failsUntouched : ∀ err,
    (prepare payloads start : Outcome Event BootFailure _ _).result = .error (.failed err) →
      start.machine.Untouched (run payloads start).2.1.machine

/-- Every boot is orderly, whatever its collaborators do. -/
theorem run_orderly (payloads : Payloads) (start : World σ κ δ) : Orderly payloads start := by
  obtain ⟨later, last, h⟩ := run_callsOf payloads start
  constructor
  case endsOnce =>
    have hends := endsOnce_of_endsWith h.ends fun c hc => h.not_closing hc
    rw [h.calls, ← List.append_assoc]
    exact hends
  case inRange =>
    obtain ⟨_, hended⟩ := run_ended payloads start
    exact hended.cut
  case readsFirst =>
    obtain ⟨calls, hcalls, -⟩ := fetch_spec start
    rw [h.calls, hcalls]
    exact ⟨_, rfl⟩
  case splash =>
    constructor
    · -- No firmware is loaded by drawing, which leaves the purpose that names the inputs.
      intro hc
      cases h.madeBy hc with
      | splash inputs hinputs hshown => exact ⟨inputs, hinputs, hshown⟩
      | loading _ hload => exact hload.elim
    · rintro ⟨inputs, hinputs, hshown⟩
      rw [h.calls]
      exact List.mem_append_left _ (drawSplash_of_inputs hinputs hshown)
  case sectors =>
    intro sector hc
    cases h.madeBy hc with
    | sector inputs hinputs hwanted => exact ⟨inputs, hinputs, hwanted⟩
    | loading _ hload => exact hload.elim
  case writesOnce => exact h.writes
  case writesLate =>
    intro path data hc
    cases h.madeBy hc with
    | loading _ hload => exact hload.elim
    | record found _ hfound hcold =>
      refine ⟨rfl, inputs_of_cold hfound hcold, ⟨found, hfound⟩, ⟨_, h.calls⟩, ?_⟩
      intro other bytes hmem
      cases (madeBy_of_fetch hmem).2.1
  case failsUntouched => exact fun err herr => untouched_of_failed herr

end Boot
end BootStage
