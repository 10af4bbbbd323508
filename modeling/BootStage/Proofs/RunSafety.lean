import BootStage.Run
/-!
# Safe runs

A safe run keeps an invariant of its state, whatever it comes to, and ends in a value or in a
failure: it never uses a range outside its buffer and never waits forever. Where one of these has
to be allowed, an `Allowance` says so. What a long run ensures is put together from its parts by
the rules below, one for each way of building runs.
-/

namespace BootStage

/-- What a run may come to besides values and failures. -/
structure Allowance where
  /-- It may use a range outside its buffer. -/
  overruns : Prop
  waits : Prop

def Stop.Permitted {ε : Type} (allowed : Allowance) : Stop ε → Prop
  | .failed _ => True
  | .outOfRange => allowed.overruns
  | .stuck => allowed.waits

namespace Run

variable {ω ω' ε ε' σ τ α β : Type} {allowed : Allowance}

/-- A result is a value with `Q` or a permitted stop. -/
def Ends (allowed : Allowance) (Q : α → Prop) : Except (Stop ε) α → Prop
  | .ok a => Q a
  | .error stop => stop.Permitted allowed

/-- `m` keeps `I`, and ends in a value with `Q` or in a permitted stop. -/
def Ensures (allowed : Allowance) (I : σ → Prop) (m : Run ω ε σ α) (Q : α → Prop) : Prop :=
  ∀ s, I s → I (m s).state ∧ Ends allowed Q (m s).result

/-- `m` keeps `I`, and ends in a value with `Q` or in a failure. -/
abbrev Safe (I : σ → Prop) (m : Run ω ε σ α) (Q : α → Prop) : Prop :=
  Ensures ⟨False, False⟩ I m Q

theorem Ends.mono {Q R : α → Prop} (h : ∀ a, Q a → R a) {result : Except (Stop ε) α}
    (hends : Ends allowed Q result) : Ends allowed R result := by
  cases result with
  | ok a => exact h a hends
  | error stop => exact hends

theorem Ends.weaken {Q : α → Prop} {result : Except (Stop ε) α}
    (h : Ends ⟨False, False⟩ Q result) : Ends allowed Q result := by
  cases result with
  | ok a => exact h
  | error stop =>
    cases stop with
    | failed err => exact h
    | outOfRange => exact h.elim
    | stuck => exact h.elim

theorem Ends.cases {Q : α → Prop} {result : Except (Stop ε) α}
    (h : Ends ⟨False, False⟩ Q result) :
    (∃ a, result = .ok a ∧ Q a) ∨ ∃ err, result = .error (.failed err) := by
  cases result with
  | ok a => exact .inl ⟨a, rfl, h⟩
  | error stop =>
    cases stop with
    | failed err => exact .inr ⟨err, rfl⟩
    | outOfRange => exact h.elim
    | stuck => exact h.elim

theorem Ends.map_failure {Q : α → Prop} {result : Except (Stop ε) α} (f : ε → ε')
    (h : Ends allowed Q result) : Ends allowed Q (result.mapError (Stop.map f)) := by
  cases result with
  | ok a => exact h
  | error stop => cases stop <;> exact h

/-! ## Sequences -/

theorem bind_of_ok {m : Run ω ε σ α} {s : σ} {a : α} (h : (m s).result = .ok a)
    (next : α → Run ω ε σ β) :
    (m >>= next) s =
      ⟨(next a (m s).state).result, (next a (m s).state).state,
        (m s).events ++ (next a (m s).state).events⟩ := by
  rw [bind_apply]
  generalize m s = out at h ⊢
  obtain ⟨result, s', events⟩ := out
  subst h
  rfl

theorem bind_of_error {m : Run ω ε σ α} {s : σ} {stop : Stop ε}
    (h : (m s).result = .error stop) (next : α → Run ω ε σ β) :
    (m >>= next) s = ⟨.error stop, (m s).state, (m s).events⟩ := by
  rw [bind_apply]
  generalize m s = out at h ⊢
  obtain ⟨result, s', events⟩ := out
  subst h
  rfl

theorem result_bind_of_ok {m : Run ω ε σ α} {s : σ} {a : α} (h : (m s).result = .ok a)
    (next : α → Run ω ε σ β) : ((m >>= next) s).result = (next a (m s).state).result := by
  rw [bind_of_ok h]

theorem bind_of_eq_ok {m : Run ω ε σ α} {s s' : σ} {a : α} (h : m s = ⟨.ok a, s', []⟩)
    (next : α → Run ω ε σ β) : (m >>= next) s = next a s' := by
  rw [bind_apply, h]
  rfl

theorem bind_of_eq_error {m : Run ω ε σ α} {s s' : σ} {stop : Stop ε} {events : List ω}
    (h : m s = ⟨.error stop, s', events⟩) (next : α → Run ω ε σ β) :
    (m >>= next) s = ⟨.error stop, s', events⟩ := by
  rw [bind_apply, h]
  rfl

theorem of_bind_ok {m : Run ω ε σ α} {next : α → Run ω ε σ β} {s : σ} {b : β}
    (h : ((m >>= next) s).result = .ok b) :
    ∃ a, (m s).result = .ok a ∧ (next a (m s).state).result = .ok b := by
  cases hresult : (m s).result with
  | error stop =>
    rw [bind_of_error hresult] at h
    cases h
  | ok a =>
    rw [bind_of_ok hresult] at h
    exact ⟨a, rfl, h⟩

theorem state_of_bind_ok {m : Run ω ε σ α} {next : α → Run ω ε σ β} {s : σ} {b : β}
    (h : ((m >>= next) s).result = .ok b) :
    ∃ a, (m s).result = .ok a ∧ (next a (m s).state).result = .ok b ∧
      ((m >>= next) s).state = (next a (m s).state).state := by
  obtain ⟨a, ha, hb⟩ := of_bind_ok h
  exact ⟨a, ha, hb, by rw [bind_of_ok ha]⟩

theorem ofExcept_apply (result : Except ε α) (s : σ) :
    (Run.ofExcept result : Run ω ε σ α) s = ⟨result.mapError .failed, s, []⟩ := by
  cases result <;> rfl

@[simp] theorem state_ofExcept (result : Except ε α) (s : σ) :
    ((Run.ofExcept result : Run ω ε σ α) s).state = s := by
  cases result <;> rfl

@[simp] theorem state_emit (event : ω) (s : σ) :
    ((Run.emit event : Run ω ε σ Unit) s).state = s :=
  rfl

@[simp] theorem state_orFail (value : Option α) (err : ε) (s : σ) :
    ((Run.orFail value err : Run ω ε σ α) s).state = s := by
  cases value <;> rfl

theorem orFail_eq_ok {value : Option α} {err : ε} {s : σ} {a : α}
    (h : ((Run.orFail value err : Run ω ε σ α) s).result = .ok a) : value = some a := by
  cases value with
  | none => cases h
  | some found => exact congrArg some (Except.ok.inj h)

theorem eq_ok_of_mapError {ε' : Type} {result : Except ε α} {f : ε → ε'} {a : α}
    (h : result.mapError f = .ok a) : result = .ok a := by
  cases result with
  | error err => cases h
  | ok found => exact congrArg Except.ok (Except.ok.inj h)

theorem ofExcept_eq_ok {result : Except ε α} {s : σ} {a : α}
    (h : ((Run.ofExcept result : Run ω ε σ α) s).result = .ok a) : result = .ok a := by
  rw [ofExcept_apply] at h
  exact eq_ok_of_mapError h

theorem eq_ok_of_toOption {result : Except ε α} {a : α} (h : result.toOption = some a) :
    result = .ok a := by
  cases result with
  | error err => cases h
  | ok found => exact congrArg Except.ok (Option.some.inj h)

theorem ofStep_apply (step : σ → Except ε α × σ) (s : σ) :
    (Run.ofStep step : Run ω ε σ α) s = ⟨(step s).1.mapError .failed, (step s).2, []⟩ := by
  unfold Run.ofStep
  generalize step s = out
  obtain ⟨result, s'⟩ := out
  cases result <;> rfl

namespace Ensures

variable {I : σ → Prop} {m : Run ω ε σ α} {Q R : α → Prop}

theorem mono (hm : Ensures allowed I m Q) (h : ∀ a, Q a → R a) : Ensures allowed I m R := by
  intro s hs
  have hout := hm s hs
  exact ⟨hout.1, hout.2.mono h⟩

theorem weaken (hm : Safe I m Q) : Ensures allowed I m Q :=
  fun s hs => ⟨(hm s hs).1, (hm s hs).2.weaken⟩

theorem forget (hm : Ensures allowed I m Q) : Ensures allowed I m fun _ => True :=
  hm.mono fun _ _ => True.intro

protected theorem pure {a : α} (h : Q a) : Ensures allowed I (pure a : Run ω ε σ α) Q :=
  fun _ hs => ⟨hs, h⟩

protected theorem bind {next : α → Run ω ε σ β} {T : β → Prop} (hm : Ensures allowed I m Q)
    (hnext : ∀ a, Q a → Ensures allowed I (next a) T) : Ensures allowed I (m >>= next) T := by
  intro s hs
  obtain ⟨hkept, hends⟩ := hm s hs
  cases hresult : (m s).result with
  | ok a =>
    rw [hresult] at hends
    rw [bind_of_ok hresult]
    exact hnext a hends _ hkept
  | error stop =>
    rw [hresult] at hends
    rw [bind_of_error hresult]
    exact ⟨hkept, hends⟩

protected theorem map {f : α → β} {T : β → Prop} (hm : Ensures allowed I m Q)
    (h : ∀ a, Q a → T (f a)) : Ensures allowed I (f <$> m) T := by
  rw [← bind_pure_comp]
  exact hm.bind fun a ha => .pure (h a ha)

theorem guarded {c : Prop} [Decidable c] {next : α → Run ω ε σ β} {a : α} {T : β → Prop}
    (hm : c → Ensures allowed I m fun _ => True) (hnext : ∀ a, Ensures allowed I (next a) T) :
    Ensures allowed I (if c then m >>= next else next a) T := by
  by_cases hc : c
  · rw [if_pos hc]
    exact (hm hc).bind fun a _ => hnext a
  · rw [if_neg hc]
    exact hnext a

theorem ite {c : Prop} [Decidable c] {m' : Run ω ε σ α} (hm : c → Ensures allowed I m Q)
    (hm' : ¬c → Ensures allowed I m' Q) : Ensures allowed I (if c then m else m') Q := by
  by_cases hc : c
  · rw [if_pos hc]
    exact hm hc
  · rw [if_neg hc]
    exact hm' hc

theorem forM {f : β → Run ω ε σ PUnit} {list : List β}
    (h : ∀ b ∈ list, Ensures allowed I (f b) fun _ => True) :
    Ensures allowed I (list.forM f) fun _ => True := by
  induction list with
  | nil => exact .pure True.intro
  | cons b rest ih =>
    have hrest : Ensures allowed I (rest.forM f) fun _ => True :=
      ih fun b' hb' => h b' (List.mem_cons_of_mem b hb')
    exact (h b List.mem_cons_self).bind fun _ _ => hrest

theorem findSomeM {f : β → Run ω ε σ (Option α)} {list : List β}
    (h : ∀ b, Ensures allowed I (f b) fun found => ∀ a, found = some a → Q a) :
    Ensures allowed I (list.findSomeM? f) fun found => ∀ a, found = some a → Q a := by
  induction list with
  | nil => exact .pure nofun
  | cons b rest ih =>
    refine (h b).bind fun found hfound => ?_
    cases found with
    | none => exact ih
    | some a => exact .pure hfound

/-! ## Single steps -/

protected theorem get : Ensures allowed I (get : Run ω ε σ σ) I :=
  fun _ hs => ⟨hs, hs⟩

protected theorem modify {f : σ → σ} (h : ∀ s, I s → I (f s)) :
    Ensures allowed I (modify f : Run ω ε σ PUnit) fun _ => True :=
  fun s hs => ⟨h s hs, True.intro⟩

theorem emit {event : ω} : Ensures allowed I (Run.emit event : Run ω ε σ Unit) fun _ => True :=
  fun _ hs => ⟨hs, True.intro⟩

protected theorem throw {err : ε} : Ensures allowed I (throw err : Run ω ε σ α) Q :=
  fun _ hs => ⟨hs, True.intro⟩

theorem outOfRange (h : allowed.overruns) : Ensures allowed I (Run.outOfRange : Run ω ε σ α) Q :=
  fun _ hs => ⟨hs, h⟩

theorem orFail {value : Option α} {err : ε} (h : ∀ a, value = some a → Q a) :
    Ensures allowed I (Run.orFail value err : Run ω ε σ α) Q := by
  cases value with
  | none => exact .throw
  | some a => exact .pure (h a rfl)

theorem ofExcept {result : Except ε α} (h : ∀ a, result = .ok a → Q a) :
    Ensures allowed I (Run.ofExcept result : Run ω ε σ α) Q := by
  cases result with
  | error err => exact .throw
  | ok a => exact .pure (h a rfl)

theorem orFail_any {value : Option α} {err : ε} :
    Ensures allowed I (Run.orFail value err : Run ω ε σ α) fun _ => True :=
  orFail fun _ _ => True.intro

theorem ofExcept_any {result : Except ε α} :
    Ensures allowed I (Run.ofExcept result : Run ω ε σ α) fun _ => True :=
  ofExcept fun _ _ => True.intro

theorem ofStep {step : σ → Except ε α × σ}
    (h : ∀ s, I s → I (step s).2 ∧ ∀ a, (step s).1 = .ok a → Q a) :
    Ensures allowed I (Run.ofStep step : Run ω ε σ α) Q := by
  intro s hs
  have hstep := h s hs
  unfold Run.ofStep
  generalize step s = out at hstep ⊢
  obtain ⟨result, s'⟩ := out
  cases result with
  | ok a => exact ⟨hstep.1, hstep.2 a rfl⟩
  | error err => exact ⟨hstep.1, True.intro⟩

/-! ## Runs in another setting -/

theorem onPart {J : τ → Prop} {view : σ → τ} {update : σ → τ → σ} {m : Run ω ε τ α}
    (hm : Ensures allowed J m Q) (hview : ∀ s, I s → J (view s))
    (hupdate : ∀ s t, I s → J t → I (update s t)) :
    Ensures allowed I (Run.onPart view update m) Q := by
  intro s hs
  have hout := hm (view s) (hview s hs)
  exact ⟨hupdate s _ hs hout.1, hout.2⟩

theorem mapFailure {f : ε → ε'} (hm : Ensures allowed I m Q) :
    Ensures allowed I (Run.mapFailure f m) Q := by
  intro s hs
  have hout := hm s hs
  exact ⟨hout.1, hout.2.map_failure f⟩

theorem mapEvents {f : ω → ω'} (hm : Ensures allowed I m Q) :
    Ensures allowed I (Run.mapEvents f m) Q :=
  fun s hs => hm s hs

theorem attempt (hm : Ensures allowed I m Q) :
    Ensures allowed I (Run.attempt m : Run ω ε' σ (Except ε α))
      fun result => ∀ a, result = .ok a → Q a := by
  intro s hs
  obtain ⟨hkept, hends⟩ := hm s hs
  unfold Run.attempt
  generalize m s = out at hkept hends ⊢
  obtain ⟨result, s', events⟩ := out
  cases result with
  | ok a =>
    refine ⟨hkept, fun b hb => ?_⟩
    obtain rfl := Except.ok.inj hb
    exact hends
  | error stop =>
    cases stop with
    | failed err => exact ⟨hkept, fun b hb => nomatch hb⟩
    | outOfRange => exact ⟨hkept, hends⟩
    | stuck => exact ⟨hkept, hends⟩

end Ensures
/-! ## Runs with a known value -/

/-- From any state with `I` the run comes to the value `a`, in a state with `J`. -/
def Yields (I J : σ → Prop) (m : Run ω ε σ α) (a : α) : Prop :=
  ∀ s, I s → (m s).result = .ok a ∧ J (m s).state

namespace Yields

variable {I J K : σ → Prop} {m : Run ω ε σ α}

protected theorem pure {a : α} : Yields I I (pure a : Run ω ε σ α) a :=
  fun _ hs => ⟨rfl, hs⟩

theorem emit {event : ω} : Yields I I (Run.emit event : Run ω ε σ Unit) () :=
  fun _ hs => ⟨rfl, hs⟩

protected theorem modify {f : σ → σ} (h : ∀ s, I s → J (f s)) :
    Yields I J (modify f : Run ω ε σ PUnit) ⟨⟩ :=
  fun s hs => ⟨rfl, h s hs⟩

protected theorem get {s : σ} : Yields (· = s) (· = s) (get : Run ω ε σ σ) s := by
  rintro _ rfl
  exact ⟨rfl, rfl⟩

protected theorem bind {next : α → Run ω ε σ β} {a : α} {b : β} (hm : Yields I J m a)
    (hnext : Yields J K (next a) b) : Yields I K (m >>= next) b := by
  intro s hs
  obtain ⟨hok, hkept⟩ := hm s hs
  rw [bind_of_ok hok]
  exact hnext _ hkept

theorem findSomeM {f : β → Run ω ε σ (Option α)} {g : β → Option α} {list : List β}
    (h : ∀ b, Yields I I (f b) (g b)) :
    Yields I I (list.findSomeM? f) (list.findSome? g) := by
  induction list with
  | nil => exact .pure
  | cons b rest ih =>
    rw [List.findSome?_cons]
    refine (h b).bind ?_
    cases g b with
    | none => exact ih
    | some a => exact .pure

theorem guarded {c : Prop} [Decidable c] {next : α → Run ω ε σ β} {a : α} {b : β}
    (hm : c → Yields I J m a) (hm' : ¬c → ∀ s, I s → J s) (hnext : Yields J K (next a) b) :
    Yields I K (if c then m >>= next else next a) b := by
  by_cases hc : c
  · rw [if_pos hc]
    exact (hm hc).bind hnext
  · rw [if_neg hc]
    exact fun s hs => hnext s (hm' hc s hs)

end Yields
end Run
end BootStage
