import BootStage.Proofs.RunSafety
/-!
# Two runs side by side

Runs from states that are related, but not equal, may come to the same all the same: to one result,
with one list of events as far as these are looked at, in states that are related again. What holds
of two long runs is put together from their parts by the rules below, one for each way of building
runs; the two may act on states of different types.
-/

namespace BootStage

variable {ω ω' γ ε ε' σ σ' τ τ' α β : Type}

/-- The outcomes have the same result, the same events as far as `see` shows them, and related
states. -/
structure Outcome.Alike (see : ω → Option γ) (R : σ → τ → Prop) (out : Outcome ω ε σ α)
    (out' : Outcome ω ε τ α) : Prop where
  result : out'.result = out.result
  events : out'.events.filterMap see = out.events.filterMap see
  state : R out.state out'.state

namespace Run

/-- From states related by `R` the runs have outcomes alike, with states related by `R'`. -/
def Alike (see : ω → Option γ) (R R' : σ → τ → Prop) (m : Run ω ε σ α) (m' : Run ω ε τ α) : Prop :=
  ∀ s t, R s t → (m s).Alike see R' (m' t)

namespace Alike

variable {see : ω → Option γ} {R R' R'' : σ → τ → Prop} {m : Run ω ε σ α} {m' : Run ω ε τ α}

protected theorem refl (m : Run ω ε σ α) : Alike see Eq Eq m m := by
  rintro s _ rfl
  exact ⟨rfl, rfl, rfl⟩

theorem strengthen (hm : Alike see R' R'' m m') (h : ∀ s t, R s t → R' s t) :
    Alike see R R'' m m' :=
  fun s t hst => hm s t (h s t hst)

/-! ## Sequences -/

/-- The first runs may stop, so what relates their states has to do for the end as well. -/
theorem bind_of_le {next : α → Run ω ε σ β} {next' : α → Run ω ε τ β} (hm : Alike see R R' m m')
    (hnext : ∀ a, Alike see R' R'' (next a) (next' a)) (hle : ∀ s t, R' s t → R'' s t) :
    Alike see R R'' (m >>= next) (m' >>= next') := by
  intro s t hst
  have hfirst := hm s t hst
  cases hresult : (m s).result with
  | error stop =>
    have hresult' := hfirst.result.trans hresult
    rw [bind_of_error hresult, bind_of_error hresult']
    exact ⟨rfl, hfirst.events, hle _ _ hfirst.state⟩
  | ok a =>
    have hresult' := hfirst.result.trans hresult
    have hlast := hnext a _ _ hfirst.state
    rw [bind_of_ok hresult, bind_of_ok hresult']
    refine ⟨hlast.result, ?_, hlast.state⟩
    simp only [List.filterMap_append, hfirst.events, hlast.events]

protected theorem bind {next : α → Run ω ε σ β} {next' : α → Run ω ε τ β}
    (hm : Alike see R R m m') (hnext : ∀ a, Alike see R R (next a) (next' a)) :
    Alike see R R (m >>= next) (m' >>= next') :=
  hm.bind_of_le hnext fun _ _ h => h

theorem get_bind {next : σ → Run ω ε σ α} {next' : τ → Run ω ε τ α}
    (h : ∀ s t, R s t → Alike see R R' (next s) (next' t)) :
    Alike see R R' (get >>= next) (get >>= next') :=
  fun s t hst => h s t hst s t hst

theorem ite {c : Prop} [Decidable c] {n : Run ω ε σ α} {n' : Run ω ε τ α}
    (hm : c → Alike see R R' m m') (hn : ¬c → Alike see R R' n n') :
    Alike see R R' (if c then m else n) (if c then m' else n') := by
  by_cases hc : c
  · simpa only [if_pos hc] using hm hc
  · simpa only [if_neg hc] using hn hc

theorem forM {f : β → Run ω ε σ PUnit} {f' : β → Run ω ε τ PUnit} {list : List β}
    (h : ∀ b, Alike see R R (f b) (f' b)) : Alike see R R (list.forM f) (list.forM f') := by
  induction list with
  | nil => exact fun _ _ hst => ⟨rfl, rfl, hst⟩
  | cons b rest ih => exact (h b).bind fun _ => ih

/-! ## Single steps -/

protected theorem pure {a : α} : Alike see R R (pure a : Run ω ε σ α) (pure a : Run ω ε τ α) :=
  fun _ _ hst => ⟨rfl, rfl, hst⟩

protected theorem modify {f : σ → σ} {f' : τ → τ} (h : ∀ s t, R s t → R' (f s) (f' t)) :
    Alike see R R' (modify f : Run ω ε σ PUnit) (modify f' : Run ω ε τ PUnit) :=
  fun s t hst => ⟨rfl, rfl, h s t hst⟩

theorem emit {event : ω} :
    Alike see R R (Run.emit event : Run ω ε σ Unit) (Run.emit event : Run ω ε τ Unit) :=
  fun _ _ hst => ⟨rfl, rfl, hst⟩

protected theorem throw {err : ε} :
    Alike see R R (throw err : Run ω ε σ α) (throw err : Run ω ε τ α) :=
  fun _ _ hst => ⟨rfl, rfl, hst⟩

theorem outOfRange :
    Alike see R R (Run.outOfRange : Run ω ε σ α) (Run.outOfRange : Run ω ε τ α) :=
  fun _ _ hst => ⟨rfl, rfl, hst⟩

theorem stuck : Alike see R R (Run.stuck : Run ω ε σ α) (Run.stuck : Run ω ε τ α) :=
  fun _ _ hst => ⟨rfl, rfl, hst⟩

theorem ofExcept {result : Except ε α} :
    Alike see R R (Run.ofExcept result : Run ω ε σ α) (Run.ofExcept result : Run ω ε τ α) := by
  cases result with
  | ok a => exact .pure
  | error err => exact .throw

theorem ofStep {step : σ → Except ε α × σ} {step' : τ → Except ε α × τ}
    (h : ∀ s t, R s t → (step' t).1 = (step s).1 ∧ R' (step s).2 (step' t).2) :
    Alike see R R' (Run.ofStep step) (Run.ofStep step') := by
  intro s t hst
  obtain ⟨hresult, hstate⟩ := h s t hst
  rw [ofStep_apply, ofStep_apply, hresult]
  exact ⟨rfl, rfl, hstate⟩

/-! ## Runs in another setting -/

theorem onPart {S S' : σ' → τ' → Prop} {view : σ → σ'} {update : σ → σ' → σ} {view' : τ → τ'}
    {update' : τ → τ' → τ} {m : Run ω ε σ' α} {m' : Run ω ε τ' α} (hm : Alike see S S' m m')
    (hview : ∀ s t, R s t → S (view s) (view' t))
    (hupdate : ∀ s t x y, R s t → S' x y → R' (update s x) (update' t y)) :
    Alike see R R' (Run.onPart view update m) (Run.onPart view' update' m') := by
  intro s t hst
  have hpart := hm _ _ (hview s t hst)
  exact ⟨hpart.result, hpart.events, hupdate s t _ _ hst hpart.state⟩

theorem mapFailure {f : ε → ε'} (hm : Alike see R R' m m') :
    Alike see R R' (Run.mapFailure f m) (Run.mapFailure f m') := by
  intro s t hst
  have hout := hm s t hst
  exact ⟨congrArg (Except.mapError (Stop.map f)) hout.result, hout.events, hout.state⟩

theorem mapEvents {f : ω → ω'} {see' : ω' → Option γ} (hsee : ∀ event, see' (f event) = see event)
    (hm : Alike see R R' m m') : Alike see' R R' (Run.mapEvents f m) (Run.mapEvents f m') := by
  intro s t hst
  have hout := hm s t hst
  have hseen : see' ∘ f = see := funext hsee
  refine ⟨hout.result, ?_, hout.state⟩
  simp only [Run.mapEvents, List.filterMap_map, hseen, hout.events]

theorem attempt (hm : Alike see R R' m m') :
    Alike see R R' (Run.attempt m : Run ω ε' σ (Except ε α)) (Run.attempt m') := by
  intro s t hst
  obtain ⟨hresult, hevents, hstate⟩ := hm s t hst
  unfold Run.attempt
  generalize m s = out at *
  generalize m' t = out' at *
  obtain ⟨result, s', events⟩ := out
  obtain ⟨result', t', events'⟩ := out'
  obtain rfl : result' = result := hresult
  cases result' with
  | ok a => exact ⟨rfl, hevents, hstate⟩
  | error stop => cases stop <;> exact ⟨rfl, hevents, hstate⟩

end Alike
end Run
end BootStage
