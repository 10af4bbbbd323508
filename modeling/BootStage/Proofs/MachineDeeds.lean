import BootStage.Boot.HandOver
import BootStage.Proofs.RunSafety
/-!
# What is done to the machine

Waiting changes the pad and nothing else that counts: no copy is made, no request carried out
and no jump taken. The hand-over takes its jump last, so one that stops has not jumped.
-/

namespace BootStage

namespace Machine

/-- Neither a copy was made, nor a request carried out, nor a jump taken. -/
structure Untouched (before after : Machine) : Prop where
  copies : after.copies = before.copies
  requests : after.requests = before.requests
  jumped : after.jumped = before.jumped

theorem Untouched.refl (m : Machine) : m.Untouched m :=
  ⟨rfl, rfl, rfl⟩

theorem Untouched.trans {a b c : Machine} (hab : a.Untouched b) (hbc : b.Untouched c) :
    a.Untouched c :=
  ⟨hbc.copies.trans hab.copies, hbc.requests.trans hab.requests, hbc.jumped.trans hab.jumped⟩

/-- A word outside the operation cell posts no request. -/
theorem untouched_setWord (m : Machine) {address : UInt32} (value : UInt32)
    (h : address ≠ Cell.operation) : m.Untouched (m.setWord address value) := by
  unfold setWord
  dsimp only
  rw [if_neg fun hposts => h hposts.1]
  exact ⟨rfl, rfl, rfl⟩

theorem jumped_setWord (m : Machine) (address value : UInt32) :
    (m.setWord address value).jumped = m.jumped := by
  unfold setWord
  dsimp only
  split <;> rfl

theorem copies_setWord (m : Machine) (address value : UInt32) :
    (m.setWord address value).copies = m.copies := by
  unfold setWord
  dsimp only
  split <;> rfl

theorem untouched_hold (m : Machine) (buttons : Buttons) : m.Untouched (m.hold buttons) :=
  untouched_setWord m _ (by decide)

theorem untouched_sleep (m : Machine) (ms : UInt32) : m.Untouched (m.sleep ms) := by
  unfold sleep
  dsimp only
  split
  · exact ⟨rfl, rfl, rfl⟩
  · next latched rest _ =>
    have hslept : m.Untouched { m with queue := rest, msAsleep := m.msAsleep + ms.toNat } :=
      ⟨rfl, rfl, rfl⟩
    exact hslept.trans (untouched_hold _ latched)

theorem untouched_sleepUntil {accept : Buttons → Bool} {ms : UInt32} {m m' : Machine}
    (h : sleepUntil accept ms m = some m') : m.Untouched m' := by
  -- Along the loop: it ends at once, or never, or sleeps and goes on.
  induction m using sleepUntil.induct accept ms with
  | case1 m haccept =>
    rw [sleepUntil, if_pos haccept] at h
    obtain rfl := Option.some.inj h
    exact .refl m
  | case2 m hwaits hqueue =>
    rw [sleepUntil, if_neg hwaits, if_pos hqueue] at h
    cases h
  | case3 m hwaits hqueue ih =>
    rw [sleepUntil, if_neg hwaits, if_neg hqueue] at h
    exact (untouched_sleep m ms).trans (ih h)

theorem jumped_setParameters (m : Machine) (words : List UInt32) :
    (m.setParameters words).jumped = m.jumped := by
  unfold setParameters
  generalize words.zipIdx = cells
  induction cells generalizing m with
  | nil => rfl
  | cons cell rest ih =>
    rw [List.foldl_cons, ih]
    exact jumped_setWord m _ _

end Machine

/-! ## The hand-over -/

namespace Run

variable {ω ω' ε σ τ α β : Type} {allowed : Allowance}

/-- `m` ends in a value, in a state with `J`; or in a permitted stop, with `I` kept. -/
def Reaches (allowed : Allowance) (I J : σ → Prop) (m : Run ω ε σ α) : Prop :=
  ∀ s, I s →
    match (m s).result with
    | .ok _ => J (m s).state
    | .error stop => I (m s).state ∧ stop.Permitted allowed

namespace Reaches

variable {I J : σ → Prop}

protected theorem bind {m : Run ω ε σ α} {Q : α → Prop} {next : α → Run ω ε σ β}
    (hm : Ensures allowed I m Q) (hnext : ∀ a, Q a → Reaches allowed I J (next a)) :
    Reaches allowed I J (m >>= next) := by
  intro s hs
  obtain ⟨hkept, hends⟩ := hm s hs
  cases hresult : (m s).result with
  | ok a =>
    rw [hresult] at hends
    rw [bind_of_ok hresult]
    exact hnext a hends _ hkept
  | error stop =>
    rw [hresult] at hends
    rw [bind_of_error hresult]
    exact ⟨hkept, hends⟩

protected theorem modify {f : σ → σ} (h : ∀ s, I s → J (f s)) :
    Reaches allowed I J (modify f : Run ω ε σ PUnit) :=
  fun s hs => h s hs

theorem onPart {I' J' : τ → Prop} {view : σ → τ} {update : σ → τ → σ} {m : Run ω ε τ α}
    (hm : Reaches allowed I' J' m) (hview : ∀ s, I s → I' (view s))
    (hkept : ∀ s t, I s → I' t → I (update s t))
    (hreached : ∀ s t, I s → J' t → J (update s t)) :
    Reaches allowed I J (Run.onPart view update m) := by
  intro s hs
  have hout := hm (view s) (hview s hs)
  change match (m (view s)).result with
    | .ok _ => J (update s (m (view s)).state)
    | .error stop => I (update s (m (view s)).state) ∧ stop.Permitted allowed
  cases hresult : (m (view s)).result with
  | ok a =>
    rw [hresult] at hout
    exact hreached s _ hs hout
  | error stop =>
    rw [hresult] at hout
    exact ⟨hkept s _ hs hout.1, hout.2⟩

theorem mapEvents {f : ω → ω'} {m : Run ω ε σ α} (hm : Reaches allowed I J m) :
    Reaches allowed I J (Run.mapEvents f m) :=
  fun s hs => hm s hs

end Reaches
end Run

namespace HandOver

variable {ε : Type} {allowed : Allowance} {was : Option (UInt32 × Option UInt32)}

/-- The machine has just taken a jump. Before it, the jump taken was `was`. -/
def JustJumped (was : Option (UInt32 × Option UInt32)) (m : Machine) : Prop :=
  ∃ before entry args, m = Machine.jump before entry args ∧ before.jumped = was

theorem ensures_place (index : Nat) (address : UInt32) (data : Bytes) :
    Run.Ensures allowed (fun m : Machine => m.jumped = was)
      (place index address data : Run Notice ε Machine Unit) fun _ => True :=
  Run.Ensures.emit.bind fun _ _ => .modify fun _ hm => hm

theorem ensures_awaitReady (hwaits : allowed.waits) :
    Run.Ensures allowed (fun m : Machine => m.jumped = was)
      (Machine.awaitReady : Run Notice ε Machine Unit) fun _ => True :=
  Run.Ensures.get.bind fun _ _ => .ite (fun _ => .pure True.intro) fun _ _ hm => ⟨hm, hwaits⟩

theorem ensures_post (hwaits : allowed.waits) (operation : Operation) (words : List UInt32) :
    Run.Ensures allowed (fun m : Machine => m.jumped = was)
      (Machine.post operation words : Run Notice ε Machine Unit) fun _ => True := by
  apply (ensures_awaitReady hwaits).bind
  intro _ _
  refine Run.Ensures.bind (Q := fun _ => True) (.modify fun m hm => ?_) fun _ _ => ?_
  · exact (Machine.jumped_setParameters m words).trans hm
  refine Run.Ensures.emit.bind fun _ _ => .modify fun m hm => ?_
  exact (Machine.jumped_setWord m _ _).trans hm

theorem ensures_releaseCell (hwaits : allowed.waits) (kind : BootKind) :
    Run.Ensures allowed (fun m : Machine => m.jumped = was)
      (releaseCell kind : Run Notice ε Machine UInt32) fun _ => True := by
  cases kind with
  | cold =>
    exact (ensures_post hwaits _ _).bind fun _ _ =>
      (ensures_awaitReady hwaits).bind fun _ _ => .pure True.intro
  | relaunch => exact .pure True.intro

theorem ensures_release (hwaits : allowed.waits) (firm : Firm) (plan : Plan) :
    Run.Ensures allowed (fun m : Machine => m.jumped = was)
      (release firm plan : Run Notice ε Machine Unit) fun _ => True := by
  apply (Run.Ensures.forM fun s _ => ensures_place _ _ _).bind
  intro _ _
  apply (ensures_releaseCell hwaits plan.kind).bind
  intro cell _
  refine Run.Ensures.bind (Q := fun _ => True) (.modify fun m hm => ?_) fun _ _ => .emit
  exact (Machine.jumped_setWord m _ _).trans hm

theorem reaches_launch (hwaits : allowed.waits) (firm : Firm) (plan : Plan) :
    Run.Reaches allowed (fun m : Machine => m.jumped = was) (JustJumped was)
      (launch firm plan : Run Notice ε Machine Unit) :=
  .bind (ensures_release hwaits firm plan) fun _ _ => .modify fun m hm => ⟨m, _, _, rfl, hm⟩

end HandOver
end BootStage
