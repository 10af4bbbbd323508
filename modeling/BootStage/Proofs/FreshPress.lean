import BootStage.Proofs.BootEndings
import BootStage.Proofs.MemoryWords
import Mathlib.Order.Bounds.Basic
/-!
# The press that dismisses an error

The pad changes only while the machine sleeps, by one queued state a sleep, and not at all once
the queue is empty. An error that is shown waits until the pad was seen empty and then held again;
where the queue brings no such press, no number of sleeps does.
-/

namespace BootStage

def Buttons.onPad (buttons : Buttons) : Buttons :=
  ⟨buttons.bits &&& 0xFFF⟩

namespace Machine

variable {accept : Buttons → Bool} {ms : UInt32} {m m' : Machine}

/-! ## Sleeping again and again -/

def slept (m : Machine) (ms : UInt32) : Nat → Machine
  | 0 => m
  | n + 1 => (m.sleep ms).slept ms n

/-- What the pad shows now, and then after each sleep that latches a queued state. -/
def pads (m : Machine) : List Buttons :=
  m.pressed :: m.queue.map Buttons.onPad

theorem pressed_hold (m : Machine) (buttons : Buttons) :
    (m.hold buttons).pressed = buttons.onPad := by
  have hbits : ∀ known : UInt32,
      ((~~~buttons.bits &&& known) ^^^ known) &&& known = buttons.bits &&& known := by
    intro known
    apply UInt32.eq_of_toBitVec_eq
    ext i hi
    simp only [UInt32.toBitVec_and, UInt32.toBitVec_xor, UInt32.toBitVec_not, BitVec.getElem_and,
      BitVec.getElem_xor, BitVec.getElem_not]
    cases buttons.bits.toBitVec[i] <;> cases known.toBitVec[i] <;> rfl
  have hword : (m.hold buttons).word Cell.pad = ~~~buttons.bits &&& Buttons.known := by
    have hquiet : Cell.pad ≠ Cell.operation := by decide
    rw [hold, setWord_of_quiet fun hposts => hquiet hposts.1]
    exact m.memory.word_setWord _ _
  rw [pressed, hword, hbits]
  rfl

theorem pressed_sleep_of_nil (h : m.queue = []) : (m.sleep ms).pressed = m.pressed := by
  unfold sleep
  dsimp only
  rw [h]
  rfl

theorem pads_sleep (h : m.queue ≠ []) : (m.sleep ms).pads = m.pads.tail := by
  obtain ⟨next, rest, hqueue⟩ := List.exists_cons_of_ne_nil h
  have hrest : (m.sleep ms).queue = rest := by rw [queue_sleep, hqueue, List.tail_cons]
  have hpressed : (m.sleep ms).pressed = next.onPad := by
    unfold sleep
    dsimp only
    rw [hqueue]
    exact pressed_hold _ next
  rw [pads, pads, hrest, hpressed, hqueue]
  rfl

theorem msAsleep_sleep (m : Machine) (ms : UInt32) :
    (m.sleep ms).msAsleep = m.msAsleep + ms.toNat := by
  unfold sleep hold setWord
  dsimp only
  split
  · rfl
  · split <;> rfl

theorem queue_slept (m : Machine) (ms : UInt32) (n : Nat) :
    (m.slept ms n).queue = m.queue.drop n := by
  induction n generalizing m with
  | zero => rfl
  | succ n ih => rw [slept, ih, queue_sleep, List.drop_tail]

theorem msAsleep_slept (m : Machine) (ms : UInt32) (n : Nat) :
    (m.slept ms n).msAsleep = m.msAsleep + ms.toNat * n := by
  induction n generalizing m with
  | zero => rfl
  | succ n ih =>
    rw [slept, ih, msAsleep_sleep, Nat.mul_succ]
    omega

theorem slept_add (m : Machine) (ms : UInt32) (k n : Nat) :
    m.slept ms (k + n) = (m.slept ms k).slept ms n := by
  induction k generalizing m with
  | zero => rw [Nat.zero_add]; rfl
  | succ k ih => rw [Nat.succ_add, slept, ih]; rfl

theorem pads_slept {n : Nat} (h : n ≤ m.queue.length) : (m.slept ms n).pads = m.pads.drop n := by
  induction n generalizing m with
  | zero => rfl
  | succ n ih =>
    have hqueue : m.queue ≠ [] := List.length_pos_iff.1 (by omega)
    have hrest : n ≤ (m.sleep ms).queue.length := by
      rw [queue_sleep, List.length_tail]
      omega
    rw [slept, ih hrest, pads_sleep hqueue, List.drop_tail]

theorem pressed_slept {n : Nat} (h : n ≤ m.queue.length) :
    m.pads[n]? = some (m.slept ms n).pressed := by
  have hfirst : (m.slept ms n).pads[0]? = some (m.slept ms n).pressed := rfl
  rw [← hfirst, pads_slept h, List.getElem?_drop, Nat.add_zero]

theorem pressed_of_pads {n : Nat} {held : Buttons} (h : m.pads[n]? = some held) :
    (m.slept ms n).pressed = held := by
  have hlength : m.pads.length = m.queue.length + 1 := by
    rw [pads, List.length_cons, List.length_map]
  obtain ⟨hlt, -⟩ := List.getElem?_eq_some_iff.1 h
  have hn : n ≤ m.queue.length := by omega
  exact Option.some.inj ((pressed_slept hn).symm.trans h)

theorem pressed_slept_of_nil (h : m.queue = []) (n : Nat) :
    (m.slept ms n).pressed = m.pressed := by
  induction n generalizing m with
  | zero => rfl
  | succ n ih =>
    have hqueue : (m.sleep ms).queue = [] := by rw [queue_sleep, h, List.tail_nil]
    rw [slept, ih hqueue, pressed_sleep_of_nil h]

theorem untouched_slept (m : Machine) (ms : UInt32) (n : Nat) : m.Untouched (m.slept ms n) := by
  induction n generalizing m with
  | zero => exact .refl m
  | succ n ih => exact (m.untouched_sleep ms).trans (ih _)

/-! ## Sleeping until the pad is as wanted -/

/-- A wait that ends has slept until the pad was first as wanted, and latched a state a sleep. -/
theorem sleepUntil_eq_some (h : sleepUntil accept ms m = some m') :
    ∃ n ≤ m.queue.length, m' = m.slept ms n ∧ accept (m.slept ms n).pressed ∧
      ∀ k < n, ¬accept (m.slept ms k).pressed := by
  -- Along the loop: it ends at once, or never, or sleeps and goes on.
  induction m using sleepUntil.induct accept ms with
  | case1 m haccept =>
    rw [sleepUntil, if_pos haccept] at h
    exact ⟨0, Nat.zero_le _, (Option.some.inj h).symm, haccept,
      fun k hk => absurd hk (Nat.not_lt_zero k)⟩
  | case2 m hwaits hqueue =>
    rw [sleepUntil, if_neg hwaits, if_pos hqueue] at h
    cases h
  | case3 m hwaits hqueue ih =>
    rw [sleepUntil, if_neg hwaits, if_neg hqueue] at h
    obtain ⟨n, hn, hslept, haccept, hbefore⟩ := ih h
    have hlength := List.length_pos_iff.2 hqueue
    rw [queue_sleep, List.length_tail] at hn
    refine ⟨n + 1, by omega, hslept, haccept, fun k hk => ?_⟩
    cases k with
    | zero => exact hwaits
    | succ k => exact hbefore k (Nat.lt_of_succ_lt_succ hk)

theorem sleepUntil_eq_none (h : sleepUntil accept ms m = none) (n : Nat) :
    ¬accept (m.slept ms n).pressed := by
  induction m using sleepUntil.induct accept ms generalizing n with
  | case1 m haccept =>
    rw [sleepUntil, if_pos haccept] at h
    cases h
  | case2 m hwaits hqueue =>
    rw [pressed_slept_of_nil hqueue]
    exact hwaits
  | case3 m hwaits hqueue ih =>
    rw [sleepUntil, if_neg hwaits, if_neg hqueue] at h
    cases n with
    | zero => exact hwaits
    | succ n => exact ih h n

end Machine

/-! ## The error screen -/

/-- Of what the pad shows in turn, `i` is the first that is empty and `j` the first from there on
that is not. -/
structure FreshPress (pads : List Buttons) (i j : Nat) : Prop where
  released : IsLeast {k | pads[k]? = some .none} i
  pressed : IsLeast {k | i ≤ k ∧ ∃ held, pads[k]? = some held ∧ held ≠ .none} j

theorem FreshPress.unique {pads : List Buttons} {i j i' j' : Nat} (h : FreshPress pads i j)
    (h' : FreshPress pads i' j') : i = i' ∧ j = j' := by
  obtain rfl := h.released.unique h'.released
  exact ⟨rfl, h.pressed.unique h'.pressed⟩

theorem Machine.freshPress_of_slept {m : Machine} {ms : UInt32} {i j : Nat} (hij : i ≤ j)
    (hj : j ≤ m.queue.length) (hnone : (m.slept ms i).pressed = .none)
    (hbefore : ∀ k < i, (m.slept ms k).pressed ≠ .none) (hheld : (m.slept ms j).pressed ≠ .none)
    (hbetween : ∀ k, i ≤ k → k < j → (m.slept ms k).pressed = .none) :
    FreshPress m.pads i j := by
  constructor
  case released =>
    refine ⟨?_, fun k hk => Nat.not_lt.1 fun hlt => hbefore k hlt (pressed_of_pads hk)⟩
    exact (pressed_slept (Nat.le_trans hij hj)).trans (congrArg some hnone)
  case pressed =>
    refine ⟨⟨hij, _, pressed_slept hj, hheld⟩, ?_⟩
    rintro k ⟨hik, held, hshown, hne⟩
    refine Nat.not_lt.1 fun hlt => hne ?_
    rw [← pressed_of_pads hshown, hbetween k hik hlt]

namespace Boot

variable {m : Machine}

/-- Once the pad was empty, it is empty forever after. -/
def NeverPressed (m : Machine) : Prop :=
  ∀ i k, i ≤ k → (m.slept pollMs i).pressed = .none → (m.slept pollMs k).pressed = .none

theorem awaitPress_cases (m : Machine) :
    (∃ i j, FreshPress m.pads i j ∧ j ≤ m.queue.length ∧
        awaitPress m = ⟨.ok (), m.slept pollMs j, []⟩) ∨
      NeverPressed m ∧ awaitPress m = ⟨.error .stuck, m, []⟩ := by
  unfold awaitPress
  rw [Run.bind_of_eq_ok (m := get) rfl]
  cases hreleased : m.sleepUntil (· == .none) pollMs with
  | none =>
    refine .inr ⟨fun i k _ hnone => ?_, rfl⟩
    have hheld := Machine.sleepUntil_eq_none hreleased i
    exact absurd (beq_iff_eq.2 hnone) hheld
  | some released =>
    obtain ⟨i, hi, rfl, hnone, hbefore⟩ := Machine.sleepUntil_eq_some hreleased
    have hheld : ∀ k < i, (m.slept pollMs k).pressed ≠ .none :=
      fun k hk hnone => hbefore k hk (beq_iff_eq.2 hnone)
    dsimp only
    cases hpressed : (m.slept pollMs i).sleepUntil (· != .none) pollMs with
    | none =>
      refine .inr ⟨fun i' k hle hnone' => ?_, rfl⟩
      have hfirst : i ≤ i' := Nat.not_lt.1 fun hlt => hheld i' hlt hnone'
      have hstays := Machine.sleepUntil_eq_none hpressed (k - i)
      rw [← Machine.slept_add, Nat.add_sub_cancel' (Nat.le_trans hfirst hle)] at hstays
      simpa using hstays
    | some pressed =>
      obtain ⟨n, hn, rfl, hafresh, hbetween⟩ := Machine.sleepUntil_eq_some hpressed
      rw [Machine.queue_slept, List.length_drop] at hn
      rw [← Machine.slept_add] at hafresh ⊢
      have hj : i + n ≤ m.queue.length := by omega
      refine .inl ⟨i, i + n, ?_, hj, rfl⟩
      refine Machine.freshPress_of_slept (Nat.le_add_right i n) hj (beq_iff_eq.1 hnone) hheld
        (bne_iff_ne.1 hafresh) fun k hik hk => ?_
      have hempty := hbetween (k - i) (by omega)
      rw [← Machine.slept_add, Nat.add_sub_cancel' hik] at hempty
      simpa using hempty

theorem NeverPressed.not_freshPress (h : NeverPressed m) (i j : Nat) :
    ¬FreshPress m.pads i j := by
  intro hpress
  obtain ⟨⟨hle, held, hshown, hne⟩, -⟩ := hpress.pressed
  have hnone := h i j hle (Machine.pressed_of_pads hpress.released.1)
  exact hne ((Machine.pressed_of_pads hshown).symm.trans hnone)

theorem drawFailure_eq (err : BootFailure) (m : Machine) :
    drawFailure err m = Run.andThen
      ⟨.ok (), m, [.notice (.failed err), .call (.drawFailure err)]⟩
      fun _ => awaitPress >>= fun _ => Run.emit (.call .shutDown) :=
  rfl

theorem drawFailure_of_pressed (err : BootFailure) {pressed : Machine}
    (h : awaitPress m = ⟨.ok (), pressed, []⟩) :
    drawFailure err m =
      ⟨.ok (), pressed, [.notice (.failed err), .call (.drawFailure err), .call .shutDown]⟩ := by
  rw [drawFailure_eq]
  dsimp only [Run.andThen]
  rw [Run.bind_of_eq_ok h]
  rfl

theorem drawFailure_of_stuck (err : BootFailure) (h : awaitPress m = ⟨.error .stuck, m, []⟩) :
    drawFailure err m =
      ⟨.error .stuck, m, [.notice (.failed err), .call (.drawFailure err)]⟩ := by
  rw [drawFailure_eq]
  dsimp only [Run.andThen]
  rw [Run.bind_of_eq_error h]
  rfl

/-- An error is shown once, and then the power goes off after as many sleeps as it takes until
buttons are pressed afresh. Where the queue holds no such press it never does. -/
theorem drawFailure_awaits_fresh_press (err : BootFailure) (m : Machine) :
    (∀ i j, FreshPress m.pads i j →
      drawFailure err m =
          ⟨.ok (), m.slept 10 j,
            [.notice (.failed err), .call (.drawFailure err), .call .shutDown]⟩ ∧
        j ≤ m.queue.length ∧ (m.slept 10 j).queue = m.queue.drop j ∧
        (m.slept 10 j).msAsleep = m.msAsleep + 10 * j) ∧
    ((¬∃ i j, FreshPress m.pads i j) →
      drawFailure err m =
          ⟨.error .stuck, m, [.notice (.failed err), .call (.drawFailure err)]⟩ ∧
        NeverPressed m) ∧
    (.call .shutDown ∈ (drawFailure err m).events ↔ ∃ i j, FreshPress m.pads i j) ∧
    m.Untouched (drawFailure err m).state ∧ ∀ n, m.Untouched (m.slept 10 n) := by
  have huntouched := m.untouched_slept 10
  rcases awaitPress_cases m with ⟨i, j, hpress, hj, hawait⟩ | ⟨hnever, hawait⟩
  · rw [drawFailure_of_pressed err hawait]
    refine ⟨fun i' j' hpress' => ?_, fun hnone => absurd ⟨i, j, hpress⟩ hnone,
      iff_of_true (by simp) ⟨i, j, hpress⟩, huntouched j, huntouched⟩
    obtain ⟨rfl, rfl⟩ := hpress.unique hpress'
    exact ⟨rfl, hj, m.queue_slept 10 j, m.msAsleep_slept 10 j⟩
  · have hnone : ¬∃ i j, FreshPress m.pads i j :=
      fun ⟨i, j, hpress⟩ => hnever.not_freshPress i j hpress
    rw [drawFailure_of_stuck err hawait]
    exact ⟨fun i j hpress => absurd ⟨i, j, hpress⟩ hnone, fun _ => ⟨rfl, hnever⟩,
      iff_of_false (by simp) hnone, .refl m, huntouched⟩

/-- A button held from the boot on is let go after two sleeps, and another pressed after four. -/
theorem drawFailure_awaits_fresh_press_held :
    let m := { Machine.idle.hold ⟨0x008⟩ with queue := [⟨0x008⟩, .none, .none, ⟨0x400⟩] }
    FreshPress m.pads 2 4 ∧
      drawFailure (.unknownTitle 0xFF) m =
        ⟨.ok (), m.slept 10 4, [.notice (.failed (.unknownTitle 0xFF)),
          .call (.drawFailure (.unknownTitle 0xFF)), .call .shutDown]⟩ := by
  intro m
  have hpads : m.pads = [⟨0x008⟩, ⟨0x008⟩, .none, .none, ⟨0x400⟩] :=
    congrArg (· :: _) (Machine.pressed_hold Machine.idle ⟨0x008⟩)
  have hpress : FreshPress m.pads 2 4 := by
    rw [hpads]
    refine ⟨⟨rfl, ?_⟩, ⟨by decide, _, rfl, by decide⟩, ?_⟩
    · rintro (_ | _ | k) hk
      · exact absurd hk (by decide)
      · exact absurd hk (by decide)
      · exact Nat.le_add_left 2 k
    · rintro (_ | _ | _ | _ | k) ⟨hle, held, hk, hne⟩
      all_goals first
        | exact absurd hle (by decide)
        | exact absurd (Option.some.inj hk).symm hne
        | exact Nat.le_add_left 4 k
  exact ⟨hpress, ((drawFailure_awaits_fresh_press _ m).1 2 4 hpress).1⟩

end Boot
end BootStage
