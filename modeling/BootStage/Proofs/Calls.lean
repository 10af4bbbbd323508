import BootStage.Event
import BootStage.Proofs.RunSafety
/-!
# Calls of a run

Which collaborators a run turns to, whatever its state and however it ends. The calls of a
sequence are those of its parts one after the other, so the rules follow the ways of building
runs once more.
-/

namespace BootStage

namespace Event

theorem calls_append (before after : List Event) :
    calls (before ++ after) = calls before ++ calls after :=
  List.filterMap_append

theorem calls_notices (notices : List Notice) : calls (notices.map notice) = [] := by
  induction notices with
  | nil => rfl
  | cons n rest ih => exact ih

end Event

namespace Run

variable {ε ε' σ τ α β : Type}

def Calling (P : Call → Prop) (m : Run Event ε σ α) : Prop :=
  ∀ s, ∀ c ∈ Event.calls (m s).events, P c

def Silent (m : Run Event ε σ α) : Prop :=
  ∀ s, Event.calls (m s).events = []

theorem calls_bind_of_ok {m : Run Event ε σ α} {s : σ} {a : α} (h : (m s).result = .ok a)
    (next : α → Run Event ε σ β) :
    Event.calls ((m >>= next) s).events =
      Event.calls (m s).events ++ Event.calls (next a (m s).state).events := by
  rw [bind_of_ok h, Event.calls_append]

theorem calls_bind_of_error {m : Run Event ε σ α} {s : σ} {stop : Stop ε}
    (h : (m s).result = .error stop) (next : α → Run Event ε σ β) :
    Event.calls ((m >>= next) s).events = Event.calls (m s).events := by
  rw [bind_of_error h]

theorem silent_ofStep {step : σ → Except ε α × σ} :
    Silent (Run.ofStep step : Run Event ε σ α) := by
  intro s
  unfold Run.ofStep
  generalize step s = out
  obtain ⟨result, s'⟩ := out
  cases result <;> rfl

namespace Calling

variable {P : Call → Prop} {m : Run Event ε σ α}

theorem mono {T : Call → Prop} (hm : Calling P m) (h : ∀ c, P c → T c) : Calling T m :=
  fun s c hc => h c (hm s c hc)

theorem of_silent (h : Silent m) : Calling P m := by
  intro s c hc
  rw [h s] at hc
  cases hc

protected theorem pure {a : α} : Calling P (pure a : Run Event ε σ α) :=
  of_silent fun _ => rfl

protected theorem get : Calling P (get : Run Event ε σ σ) :=
  of_silent fun _ => rfl

protected theorem modify {f : σ → σ} : Calling P (modify f : Run Event ε σ PUnit) :=
  of_silent fun _ => rfl

theorem notice {n : Notice} : Calling P (Run.emit (.notice n) : Run Event ε σ Unit) :=
  of_silent fun _ => rfl

protected theorem throw {err : ε} : Calling P (throw err : Run Event ε σ α) :=
  of_silent fun _ => rfl

theorem outOfRange : Calling P (Run.outOfRange : Run Event ε σ α) :=
  of_silent fun _ => rfl

theorem ofExcept {result : Except ε α} :
    Calling P (Run.ofExcept result : Run Event ε σ α) := by
  cases result with
  | error err => exact .throw
  | ok a => exact .pure

theorem ofStep {step : σ → Except ε α × σ} :
    Calling P (Run.ofStep step : Run Event ε σ α) :=
  of_silent silent_ofStep

theorem call {c : Call} (h : P c) : Calling P (Run.emit (.call c) : Run Event ε σ Unit) := by
  intro s c' hc'
  obtain rfl := List.mem_singleton.1 hc'
  exact h

protected theorem bind {next : α → Run Event ε σ β} (hm : Calling P m)
    (hnext : ∀ a, Calling P (next a)) : Calling P (m >>= next) := by
  intro s c hc
  cases hresult : (m s).result with
  | error stop =>
    rw [calls_bind_of_error hresult] at hc
    exact hm s c hc
  | ok a =>
    rw [calls_bind_of_ok hresult] at hc
    rcases List.mem_append.1 hc with hfirst | hrest
    · exact hm s c hfirst
    · exact hnext a _ c hrest

theorem ite {p : Prop} [Decidable p] {m' : Run Event ε σ α} (hm : p → Calling P m)
    (hm' : ¬p → Calling P m') : Calling P (if p then m else m') := by
  by_cases hp : p
  · rw [if_pos hp]
    exact hm hp
  · rw [if_neg hp]
    exact hm' hp

theorem guarded {p : Prop} [Decidable p] {next : α → Run Event ε σ β} {a : α}
    (hm : p → Calling P m) (hnext : ∀ a, Calling P (next a)) :
    Calling P (if p then m >>= next else next a) :=
  ite (fun hp => (hm hp).bind hnext) fun _ => hnext a

theorem forM {f : β → Run Event ε σ PUnit} {list : List β} (h : ∀ b, Calling P (f b)) :
    Calling P (list.forM f) := by
  induction list with
  | nil => exact .pure
  | cons b rest ih => exact (h b).bind fun _ => ih

theorem findSomeM {f : β → Run Event ε σ (Option α)} {list : List β}
    (h : ∀ b, Calling P (f b)) : Calling P (list.findSomeM? f) := by
  induction list with
  | nil => exact .pure
  | cons b rest ih =>
    refine (h b).bind fun found => ?_
    cases found with
    | none => exact ih
    | some a => exact .pure

theorem onPart {view : σ → τ} {update : σ → τ → σ} {m : Run Event ε τ α} (hm : Calling P m) :
    Calling P (Run.onPart view update m) :=
  fun s => hm (view s)

theorem mapFailure {f : ε → ε'} (hm : Calling P m) : Calling P (Run.mapFailure f m) :=
  fun s => hm s

theorem mapNotices {m : Run Notice ε σ α} : Calling P (Run.mapEvents Event.notice m) :=
  of_silent fun s => Event.calls_notices (m s).events

theorem attempt (hm : Calling P m) :
    Calling P (Run.attempt m : Run Event ε' σ (Except ε α)) := by
  intro s
  have hcalls := hm s
  unfold Run.attempt
  generalize m s = out at hcalls ⊢
  obtain ⟨result, s', events⟩ := out
  cases result with
  | ok a => exact hcalls
  | error stop => cases stop <;> exact hcalls

end Calling

/-! ## The calls of a run as its events -/

/-- The run without its notices. -/
def called (m : Run Event ε σ α) : Run Call ε σ α := fun s =>
  ⟨(m s).result, (m s).state, Event.calls (m s).events⟩

theorem called_bind (m : Run Event ε σ α) (next : α → Run Event ε σ β) :
    called (m >>= next) = called m >>= fun a => called (next a) := by
  funext s
  cases hresult : (m s).result with
  | error stop =>
    have hcalled : (called m s).result = .error stop := hresult
    rw [called, bind_of_error hresult, bind_of_error hcalled]
    rfl
  | ok a =>
    have hcalled : (called m s).result = .ok a := hresult
    rw [called, bind_of_ok hresult, bind_of_ok hcalled, Event.calls_append]
    rfl

theorem called_pure (a : α) : called (pure a : Run Event ε σ α) = pure a :=
  rfl

theorem called_notice_bind (n : Notice) (next : Unit → Run Event ε σ β) :
    called (Run.emit (.notice n) >>= next) = called (next ()) := by
  rw [called_bind]
  exact pure_bind () fun _ => called (next ())

theorem called_attempt (m : Run Event ε σ α) :
    called (Run.attempt m : Run Event ε' σ (Except ε α)) = Run.attempt (called m) := by
  funext s
  dsimp only [called, Run.attempt]
  generalize m s = out
  obtain ⟨result, s', events⟩ := out
  cases result with
  | ok a => rfl
  | error stop => cases stop <;> rfl

theorem silent_of_calling {m : Run Event ε σ α} (h : Calling (fun _ => False) m) : Silent m :=
  fun s => List.eq_nil_iff_forall_not_mem.2 fun c hc => h s c hc

end Run
end BootStage
