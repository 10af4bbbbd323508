/-!
# Runs

A `Run` acts on a state and may fail. Whatever happens, the state it had reached is kept:
a failed patch leaves the bytes it wrote, a failed read leaves what it read. The events of a
run are listed in order, and those of a sequence are the events of its parts one after the
other.

Besides the failures its caller can handle, a run can stop in two ways that no caller sees:
it touches a range outside its buffer, or it waits for something that cannot happen.
-/

namespace BootStage

/-- Why a run ends without a result. -/
inductive Stop (ε : Type) where
  /-- A failure reported to the caller. -/
  | failed (err : ε)
  /-- A range outside its buffer was used, or a value too wide for its field stored. -/
  | outOfRange
  /-- The run waits forever. -/
  | stuck
  deriving DecidableEq, Repr

namespace Stop

def map {ε ε' : Type} (f : ε → ε') : Stop ε → Stop ε'
  | failed err => failed (f err)
  | outOfRange => outOfRange
  | stuck => stuck

end Stop

structure Outcome (ω ε σ α : Type) where
  result : Except (Stop ε) α
  state : σ
  events : List ω

/-- A computation on a state `σ` that lists events `ω` and may fail with `ε`. -/
def Run (ω ε σ α : Type) : Type :=
  σ → Outcome ω ε σ α

namespace Run

variable {ω ω' ε ε' σ τ α β : Type}

def andThen (out : Outcome ω ε σ α) (next : α → Run ω ε σ β) : Outcome ω ε σ β :=
  match out with
  | ⟨.error stop, s, events⟩ => ⟨.error stop, s, events⟩
  | ⟨.ok a, s, events⟩ =>
    let last := next a s
    ⟨last.result, last.state, events ++ last.events⟩

instance : Monad (Run ω ε σ) where
  pure a := fun s => ⟨.ok a, s, []⟩
  bind m next := fun s => andThen (m s) next

instance : MonadStateOf σ (Run ω ε σ) where
  get := fun s => ⟨.ok s, s, []⟩
  set s := fun _ => ⟨.ok ⟨⟩, s, []⟩
  modifyGet f := fun s => let (a, s') := f s; ⟨.ok a, s', []⟩

/-- Only failures can be caught; the events before them stay listed. -/
instance : MonadExceptOf ε (Run ω ε σ) where
  throw err := fun s => ⟨.error (.failed err), s, []⟩
  tryCatch m handle := fun s =>
    match m s with
    | ⟨.error (.failed err), s', events⟩ =>
      let last := handle err s'
      ⟨last.result, last.state, events ++ last.events⟩
    | out => out

def emit (event : ω) : Run ω ε σ Unit :=
  fun s => ⟨.ok (), s, [event]⟩

def outOfRange : Run ω ε σ α :=
  fun s => ⟨.error .outOfRange, s, []⟩

def stuck : Run ω ε σ α :=
  fun s => ⟨.error .stuck, s, []⟩

def orFail (value : Option α) (err : ε) : Run ω ε σ α :=
  match value with
  | some a => pure a
  | none => throw err

def ofExcept (result : Except ε α) : Run ω ε σ α :=
  match result with
  | .ok a => pure a
  | .error err => throw err

/-- Runs on the state computed by a function that keeps it on failure. -/
def ofStep (step : σ → Except ε α × σ) : Run ω ε σ α := fun s =>
  match step s with
  | (.ok a, s') => ⟨.ok a, s', []⟩
  | (.error err, s') => ⟨.error (.failed err), s', []⟩

/-- Turns a failure into a value, so that the caller can go on. -/
def attempt (m : Run ω ε σ α) : Run ω ε' σ (Except ε α) := fun s =>
  match m s with
  | ⟨.ok a, s', events⟩ => ⟨.ok (.ok a), s', events⟩
  | ⟨.error (.failed err), s', events⟩ => ⟨.ok (.error err), s', events⟩
  | ⟨.error .outOfRange, s', events⟩ => ⟨.error .outOfRange, s', events⟩
  | ⟨.error .stuck, s', events⟩ => ⟨.error .stuck, s', events⟩

def mapFailure (f : ε → ε') (m : Run ω ε σ α) : Run ω ε' σ α := fun s =>
  let out := m s
  ⟨out.result.mapError (Stop.map f), out.state, out.events⟩

def mapEvents (f : ω → ω') (m : Run ω ε σ α) : Run ω' ε σ α := fun s =>
  let out := m s
  ⟨out.result, out.state, out.events.map f⟩

/-- Runs on a part of the state. The part is put back also when the run stops. -/
def onPart (view : σ → τ) (update : σ → τ → σ) (m : Run ω ε τ α) : Run ω ε σ α := fun s =>
  let out := m (view s)
  ⟨out.result, update s out.state, out.events⟩

theorem pure_apply (a : α) (s : σ) : (pure a : Run ω ε σ α) s = ⟨.ok a, s, []⟩ := rfl

theorem bind_apply (m : Run ω ε σ α) (next : α → Run ω ε σ β) (s : σ) :
    (m >>= next) s = andThen (m s) next := rfl

private theorem andThen_pure (out : Outcome ω ε σ α) : andThen out pure = out := by
  obtain ⟨result, s, events⟩ := out
  cases result with
  | error stop => rfl
  | ok a =>
    change Outcome.mk (.ok a) s (events ++ []) = _
    rw [List.append_nil]

private theorem andThen_assoc {γ : Type} (out : Outcome ω ε σ α) (f : α → Run ω ε σ β)
    (g : β → Run ω ε σ γ) :
    andThen (andThen out f) g = andThen out fun a s => andThen (f a s) g := by
  obtain ⟨result, s, events⟩ := out
  cases result with
  | error stop => rfl
  | ok a =>
    dsimp only [andThen]
    obtain ⟨result', s', events'⟩ := f a s
    cases result' with
    | error stop => rfl
    | ok b => dsimp only [andThen]; rw [List.append_assoc]

instance : LawfulMonad (Run ω ε σ) :=
  .mk' _
    (fun m => funext fun s => andThen_pure (m s))
    (fun a next => funext fun s => by
      change andThen ⟨.ok a, s, []⟩ next = next a s
      simp only [andThen, List.nil_append])
    (fun m f g => funext fun s => andThen_assoc (m s) f g)

end Run
end BootStage
