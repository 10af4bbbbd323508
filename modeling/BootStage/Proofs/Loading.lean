import BootStage.Boot.Intake
import BootStage.Config.Store
import BootStage.Proofs.Calls
import BootStage.Proofs.Searching
/-!
# Reading and loading

What is read into a buffer is used as far as the storage says it filled it. Only a storage that
claims more than the buffer holds makes reading the configuration or loading a firmware use a
range outside the buffer. Reading the configuration cannot fail in any other way.
-/

namespace BootStage

variable {σ κ ε : Type} [Storage σ] [Crypto κ]

/-- The storage never reports a file that is longer than the buffer it was read into. -/
def Storage.Truthful (σ : Type) [Storage σ] : Prop :=
  ∀ (path : String) (buffer : Bytes) (s : σ) (n : Nat),
    (Storage.getFile path buffer s).result = .ok n → n ≤ buffer.size

theorem Storage.read_apply (path : String) (buffer : Bytes) (s : σ) :
    (Storage.read path buffer : Run Event ε σ _) s =
      let out := Storage.getFile path buffer s
      ⟨.ok (out.result, out.buffer), out.state, [.call (.getFile path buffer.size)]⟩ :=
  rfl

variable {allowed : Allowance}

/-- What is read fits the buffer, where overruns are not allowed for. -/
theorem Storage.ensures_read (htruthful : Storage.Truthful σ ∨ allowed.overruns) (path : String)
    (buffer : Bytes) :
    Run.Ensures allowed (fun _ : σ => True) (Storage.read path buffer : Run Event ε σ _)
      fun out =>
        out.2.size = buffer.size ∧ ∀ n, out.1 = .ok n → n ≤ buffer.size ∨ allowed.overruns := by
  intro s _
  rw [Storage.read_apply]
  refine ⟨True.intro, Storage.size_getFile path buffer s, fun n hn => ?_⟩
  exact htruthful.imp_left fun hfits => hfits path buffer s n hn

theorem Storage.calling_read {P : Call → Prop} {path : String} {buffer : Bytes}
    (h : P (.getFile path buffer.size)) :
    Run.Calling P (Storage.read path buffer : Run Event ε σ _) := by
  intro s c hc
  obtain rfl := List.mem_singleton.1 hc
  exact h

/-! ## The configuration -/

namespace Config

/-- Reading the configuration makes one call, and gives a configuration unless the storage claims
too much. -/
theorem load_spec (s : σ) :
    ∃ (result : Except (Stop ε) (Config × Origin)) (notices : List Notice),
      (load : Run Event ε σ _) s =
          ⟨result, (Storage.getFile path (Array.replicate (fileSize + 1) 0) s).state,
            .call (.getFile path (fileSize + 1)) :: notices.map .notice⟩ ∧
        ((∃ config origin, result = .ok (config, origin)) ∨
          result = .error .outOfRange ∧ ¬Storage.Truthful σ) := by
  have hsize := Storage.size_getFile path (Array.replicate (fileSize + 1) 0) s
  have hfits := fun htruthful : Storage.Truthful σ =>
    htruthful path (Array.replicate (fileSize + 1) 0) s
  unfold load
  rw [Run.bind_apply, Storage.read_apply]
  generalize Storage.getFile path (Array.replicate (fileSize + 1) 0) s = out at hsize hfits ⊢
  obtain ⟨result, buffer, s'⟩ := out
  cases result with
  | error err => exact ⟨_, [.configUnavailable err], rfl, .inl ⟨.empty, .defaulted, rfl⟩⟩
  | ok n =>
    dsimp only [Run.andThen, adopt]
    by_cases hrange : n ≤ buffer.size
    · rw [Bytes.range?_eq_some (Nat.zero_le n) hrange]
      dsimp only
      cases decode (buffer.extract 0 n) with
      | error err => exact ⟨_, [.configIgnored err], rfl, .inl ⟨.empty, .defaulted, rfl⟩⟩
      | ok config => exact ⟨_, [], rfl, .inl ⟨config, .stored, rfl⟩⟩
    · rw [Bytes.range?_eq_none (Nat.not_le.1 hrange)]
      exact ⟨_, [], rfl, .inr ⟨rfl, fun htruthful => hrange (hsize ▸ hfits htruthful n rfl)⟩⟩

end Config

/-! ## The firmware -/

/-- A call that loading a firmware may make: it reads images and titles, decrypts and checks. -/
def Call.IsLoading : Call → Prop
  | .getFile path _ => ∃ title : Title, path = title.imagePath
  | .readTitle _ _ _ | .decryptTitle _ | .checkSection _ _ | .decryptArm9 _ _ => True
  | _ => False

namespace Intake

def Holds (n : Nat) (intake : Intake σ κ) : Prop :=
  intake.buffer.size = n

variable {n : Nat}

omit [Crypto κ] in
theorem ensures_getFile (htruthful : Storage.Truthful σ ∨ allowed.overruns) (path : String) :
    Run.Ensures allowed (Holds n) (getFile path : Run Event BootFailure (Intake σ κ) Nat)
      fun size => size ≤ n ∨ allowed.overruns := by
  apply Run.Ensures.get.bind
  intro intake hintake
  have hread := Storage.ensures_read (ε := BootFailure) htruthful path intake.buffer
  refine Run.Ensures.bind (hread.onPart (fun _ _ => True.intro) fun _ _ h _ => h) fun out hout => ?_
  obtain ⟨result, buffer⟩ := out
  refine Run.Ensures.bind (Q := fun _ => True) (.modify fun _ _ => hout.1.trans hintake)
    fun _ _ => .ofExcept fun size hsize => ?_
  cases result with
  | error err => cases hsize
  | ok found =>
    obtain rfl := Except.ok.inj hsize
    exact hintake ▸ hout.2 found rfl

omit [Crypto κ] in
theorem safe_readTitle (nand : Nand) (title : Title) :
    Run.Safe (Holds n) (readTitle nand title : Run Event BootFailure (Intake σ κ) _)
      fun _ => True := by
  refine Run.Ensures.get.bind fun _ _ => Run.Ensures.emit.bind fun _ _ => .ofStep fun intake h => ?_
  exact ⟨(Storage.size_readTitle nand title intake.buffer intake.storage).trans h,
    fun _ _ => True.intro⟩

omit [Storage σ] in
theorem safe_decryptTitle :
    Run.Safe (Holds n) (decryptTitle : Run Event BootFailure (Intake σ κ) _)
      fun _ => True := by
  refine Run.Ensures.get.bind fun _ _ => Run.Ensures.emit.bind fun _ _ => .ofStep fun intake h => ?_
  exact ⟨(Crypto.size_decryptTitle intake.buffer intake.crypto).trans h, fun _ _ => True.intro⟩

omit [Storage σ] in
theorem safe_checkSection (entry : Section) (payload : Bytes) :
    Run.Safe (Holds n) (checkSection entry payload : Run Event BootFailure (Intake σ κ) _)
      fun _ => True := by
  have hcheck : Run.Safe (fun _ : κ => True)
      (Run.ofStep (Crypto.checkSection entry payload) : Run Event CryptoFailure κ Unit)
      fun _ => True :=
    .ofStep fun _ _ => ⟨True.intro, fun _ _ => True.intro⟩
  exact Run.Ensures.emit.bind fun _ _ =>
    (hcheck.onPart (fun _ _ => True.intro) fun _ _ h _ => h).mapFailure

omit [Storage σ] in
theorem safe_unlockRange (start stop : Nat) (model : Model) :
    Run.Safe (Holds n) (unlockRange start stop model : Run Event BootFailure (Intake σ κ) _)
      fun _ => True := by
  refine Run.Ensures.emit.bind fun _ _ => .ofStep fun intake h => ?_
  exact ⟨(Bytes.size_overwrite intake.buffer start _).trans h, fun _ _ => True.intro⟩

omit [Storage σ] [Crypto κ] in
theorem ensures_parse {I : Intake σ κ → Prop} :
    Run.Ensures allowed I (parse : Run Event BootFailure (Intake σ κ) _)
      fun firm => Firm.parse firm.bytes = .ok firm := by
  refine Run.Ensures.get.bind fun intake _ => .ofExcept fun firm hfirm => ?_
  cases hparse : Firm.parse intake.buffer with
  | error err =>
    rw [hparse] at hfirm
    cases hfirm
  | ok found =>
    rw [hparse] at hfirm
    obtain rfl := Except.ok.inj hfirm
    obtain ⟨-, -, rfl, -⟩ := Firm.parse_eq_ok hparse
    exact hparse

end Intake

namespace LoadedImage

variable {n : Nat}

omit [Crypto κ] in
theorem ensures_readImage (htruthful : Storage.Truthful σ ∨ allowed.overruns) (plan : Plan) :
    Run.Ensures allowed (Intake.Holds n)
      (readImage plan : Run Event BootFailure (Intake σ κ) _) fun _ => True := by
  apply (Intake.ensures_getFile htruthful _).bind
  intro size hsize
  apply Run.Ensures.get.bind
  intro intake hintake
  by_cases hrange : size ≤ intake.buffer.size
  · rw [Bytes.range?_eq_some (Nat.zero_le size) hrange]
    apply Run.Ensures.ofExcept_any.bind
    intro firm _
    exact .ite (fun _ => .pure True.intro) fun _ => .throw
  · rw [Bytes.range?_eq_none (Nat.not_le.1 hrange)]
    exact .outOfRange (hsize.resolve_left fun hfits => hrange (hintake.symm ▸ hfits))

theorem safe_readInstalled (plan : Plan) :
    Run.Safe (Intake.Holds n) (readInstalled plan : Run Event BootFailure (Intake σ κ) _)
      fun _ => True := by
  apply (Intake.safe_readTitle _ _).bind
  intro installed _
  refine Intake.safe_decryptTitle.bind fun _ _ => Intake.ensures_parse.bind fun firm _ => ?_
  apply (Run.Ensures.forM fun s _ => Intake.safe_checkSection s _).bind
  intro _ _
  exact Run.Ensures.emit.bind fun _ _ => .pure True.intro

omit [Storage σ] [Crypto κ] in
theorem safe_moveEntry (title : Title) (firm : Firm) :
    Run.Safe (Intake.Holds n) (moveEntry title firm : Run Event BootFailure (Intake σ κ) Unit)
      fun _ => True := by
  refine .modify fun intake h => ?_
  simp only [Intake.Holds, Firm.size_withArm9Entry]
  exact h

omit [Storage σ] in
theorem safe_unlock (plan : Plan) :
    Run.Safe (Intake.Holds n) (unlock plan : Run Event BootFailure (Intake σ κ) _)
      fun _ => True := by
  apply Intake.ensures_parse.bind
  intro firm _
  cases firm.section? plan.title.arm9Slot with
  | none => exact safe_moveEntry plan.title firm
  | some s =>
    exact (Intake.safe_unlockRange s.start s.stop plan.model).bind fun _ _ =>
      safe_moveEntry plan.title firm

theorem ensures_read (htruthful : Storage.Truthful σ ∨ allowed.overruns) (plan : Plan)
    (preferCard : Bool) :
    Run.Ensures allowed (Intake.Holds n)
      (read plan preferCard : Run Event BootFailure (Intake σ κ) _) fun _ => True := by
  refine .ite (fun _ => ?_) fun _ => (safe_readInstalled plan).weaken
  apply (ensures_readImage htruthful plan).attempt.bind
  intro image _
  cases image with
  | ok _ => exact .pure True.intro
  | error err => exact Run.Ensures.emit.bind fun _ _ => (safe_readInstalled plan).weaken

theorem ensures_load (htruthful : Storage.Truthful σ ∨ allowed.overruns) (plan : Plan)
    (preferCard : Bool) :
    Run.Ensures allowed (fun _ => True)
      (load plan preferCard : Run Event BootFailure (Intake σ κ) _) fun _ => True := by
  intro intake _
  have hload : Run.Ensures allowed (Intake.Holds intake.buffer.size)
      (load plan preferCard : Run Event BootFailure (Intake σ κ) _) fun _ => True := by
    apply (ensures_read htruthful plan preferCard).bind
    intro loaded _
    refine .guarded (a := ()) (fun _ => (safe_unlock plan).weaken) fun _ => ?_
    exact Run.Ensures.emit.bind fun _ _ => .pure True.intro
  exact ⟨True.intro, (hload intake rfl).2⟩

omit [Crypto κ] in
theorem calling_readImage (plan : Plan) :
    Run.Calling Call.IsLoading (readImage plan : Run Event BootFailure (Intake σ κ) _) := by
  refine Run.Calling.bind ?_ fun size => Run.Calling.get.bind fun intake => ?_
  · refine Run.Calling.get.bind fun intake => ?_
    refine (Storage.calling_read ⟨plan.title, rfl⟩).onPart.bind fun out => ?_
    exact Run.Calling.modify.bind fun _ => .ofExcept
  · cases intake.buffer.range? 0 size with
    | none => exact .outOfRange
    | some image =>
      exact Run.Calling.ofExcept.bind fun firm => .ite (fun _ => .pure) fun _ => .throw

theorem calling_readInstalled (plan : Plan) :
    Run.Calling Call.IsLoading (readInstalled plan : Run Event BootFailure (Intake σ κ) _) := by
  refine Run.Calling.bind ?_ fun installed => Run.Calling.bind ?_ fun _ => ?_
  · exact Run.Calling.get.bind fun _ => (Run.Calling.call True.intro).bind fun _ => .ofStep
  · exact Run.Calling.get.bind fun _ => (Run.Calling.call True.intro).bind fun _ => .ofStep
  refine (Run.Calling.get.bind fun _ => .ofExcept).bind fun firm => ?_
  refine (Run.Calling.forM fun s => ?_).bind fun _ => Run.Calling.notice.bind fun _ => .pure
  exact (Run.Calling.call True.intro).bind fun _ => Run.Calling.ofStep.onPart.mapFailure

omit [Storage σ] in
theorem calling_unlock (plan : Plan) :
    Run.Calling Call.IsLoading (unlock plan : Run Event BootFailure (Intake σ κ) _) := by
  refine (Run.Calling.get.bind fun _ => .ofExcept).bind fun firm => ?_
  cases firm.section? plan.title.arm9Slot with
  | none => exact .modify
  | some s =>
    have hunlock : Run.Calling Call.IsLoading
        (Intake.unlockRange s.start s.stop plan.model :
          Run Event BootFailure (Intake σ κ) Unit) :=
      (Run.Calling.call True.intro).bind fun _ => .ofStep
    exact hunlock.bind fun _ => .modify

theorem calling_load (plan : Plan) (preferCard : Bool) :
    Run.Calling Call.IsLoading
      (load plan preferCard : Run Event BootFailure (Intake σ κ) _) := by
  refine Run.Calling.bind ?_ fun loaded => ?_
  · refine .ite (fun _ => ?_) fun _ => calling_readInstalled plan
    apply (calling_readImage plan).attempt.bind
    intro image
    cases image with
    | ok _ => exact .pure
    | error err => exact Run.Calling.notice.bind fun _ => calling_readInstalled plan
  · refine .guarded (a := ()) (fun _ => calling_unlock plan) fun _ => ?_
    exact Run.Calling.notice.bind fun _ => .pure

end LoadedImage
end BootStage
