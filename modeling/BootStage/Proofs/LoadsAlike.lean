import BootStage.Proofs.Loading
import BootStage.Proofs.TwoRuns
/-!
# Loads side by side

Two storages that answer alike yield the same configuration and the same firmware, whatever else
sets them apart. Loading only reads, so they go on to answer alike.
-/

namespace BootStage

variable {σ τ κ ε α : Type}

/-- The transfers gave the same answer and filled the buffer alike, and left states related by
`R`. -/
structure Transfer.Alike (R : σ → τ → Prop) (out : Transfer ε α σ) (out' : Transfer ε α τ) :
    Prop where
  result : out'.result = out.result
  buffer : out'.buffer = out.buffer
  state : R out.state out'.state

variable [Storage σ] [Storage τ]

/-- Storages related by `same` answer alike, and go on to do so as long as they are only read. A
write to `path` may come to different results; it leaves storages related by `near`. -/
structure Storage.AnswerAlike (path : String) (same near : σ → τ → Prop) : Prop where
  getFile : ∀ name buffer s t, same s t →
    (getFile name buffer s).Alike same (Storage.getFile name buffer t)
  readTitle : ∀ nand title buffer s t, same s t →
    (readTitle nand title buffer s).Alike same (Storage.readTitle nand title buffer t)
  putFile : ∀ data s t, same s t → near (putFile path data s).2 (Storage.putFile path data t).2
  unwritten : ∀ s t, same s t → near s t

theorem Storage.answerAlike_eq (path : String) :
    Storage.AnswerAlike path (Eq : σ → σ → Prop) Eq := by
  constructor
  case getFile =>
    rintro name buffer s _ rfl
    exact ⟨rfl, rfl, rfl⟩
  case readTitle =>
    rintro nand title buffer s _ rfl
    exact ⟨rfl, rfl, rfl⟩
  case putFile =>
    rintro data s _ rfl
    rfl
  case unwritten => exact fun _ _ h => h

variable {path : String} {S S' : σ → τ → Prop}

theorem Storage.alike_read (h : Storage.AnswerAlike path S S') (name : String) (buffer : Bytes) :
    Run.Alike Event.call? S S (Storage.read name buffer : Run Event ε σ _)
      (Storage.read name buffer) := by
  intro s t hst
  obtain ⟨hresult, hbuffer, hstate⟩ := h.getFile name buffer s t hst
  simp only [Storage.read_apply, hresult, hbuffer]
  exact ⟨rfl, rfl, hstate⟩

theorem Config.alike_load (h : Storage.AnswerAlike path S S') :
    Run.Alike Event.call? S S (Config.load : Run Event ε σ _) Config.load := by
  apply (Storage.alike_read h _ _).bind
  rintro ⟨read, buffer⟩
  cases read with
  | error err => exact Run.Alike.emit.bind fun _ => .pure
  | ok size =>
    simp only [Config.adopt]
    cases buffer.range? 0 size with
    | none => exact .outOfRange
    | some file =>
      simp only
      cases Config.decode file with
      | ok config => exact .pure
      | error err => exact Run.Alike.emit.bind fun _ => .pure

/-! ## The firmware -/

namespace Intake

structure Alike (S : σ → τ → Prop) (intake : Intake σ κ) (intake' : Intake τ κ) : Prop where
  storage : S intake.storage intake'.storage
  crypto : intake'.crypto = intake.crypto
  buffer : intake'.buffer = intake.buffer

omit [Storage σ] [Storage τ] in
theorem alike_onStorage {m : Run Event ε σ α} {m' : Run Event ε τ α}
    (hm : Run.Alike Event.call? S S' m m') :
    Run.Alike Event.call? (Alike S) (Alike S')
      (onStorage m : Run Event ε (Intake σ κ) α) (onStorage m') :=
  hm.onPart (fun _ _ h => h.storage) fun _ _ _ _ h hstorage => ⟨hstorage, h.crypto, h.buffer⟩

variable [Crypto κ]

omit [Crypto κ] in
theorem alike_getFile (h : Storage.AnswerAlike path S S') (name : String) :
    Run.Alike Event.call? (Alike S) (Alike S)
      (getFile name : Run Event BootFailure (Intake σ κ) Nat) (getFile name) := by
  apply Run.Alike.get_bind
  intro intake intake' hsame
  rw [hsame.buffer]
  apply (alike_onStorage (Storage.alike_read h name intake.buffer)).bind
  rintro ⟨result, buffer⟩
  have hset : Run.Alike Event.call? (Alike S) (Alike S)
      (modify fun intake => { intake with buffer } : Run Event BootFailure (Intake σ κ) PUnit)
      (modify fun intake => { intake with buffer }) :=
    .modify fun _ _ h => ⟨h.storage, h.crypto, rfl⟩
  exact hset.bind fun _ => .ofExcept

omit [Crypto κ] in
theorem alike_readTitle (h : Storage.AnswerAlike path S S') (nand : Nand) (title : Title) :
    Run.Alike Event.call? (Alike S) (Alike S)
      (readTitle nand title : Run Event BootFailure (Intake σ κ) _) (readTitle nand title) := by
  apply Run.Alike.get_bind
  intro intake intake' hsame
  rw [hsame.buffer]
  refine Run.Alike.emit.bind fun _ => .ofStep fun s t hst => ?_
  obtain ⟨hresult, hbuffer, hstate⟩ := h.readTitle nand title s.buffer s.storage t.storage
    hst.storage
  simp only [hst.buffer, hresult]
  exact ⟨True.intro, hstate, hst.crypto, hbuffer⟩

omit [Storage σ] [Storage τ] in
theorem alike_decryptTitle :
    Run.Alike Event.call? (Alike S) (Alike S)
      (decryptTitle : Run Event BootFailure (Intake σ κ) _) decryptTitle := by
  apply Run.Alike.get_bind
  intro intake intake' hsame
  rw [hsame.buffer]
  refine Run.Alike.emit.bind fun _ => .ofStep fun s t hst => ?_
  rw [hst.buffer, hst.crypto]
  exact ⟨rfl, hst.storage, rfl, rfl⟩

omit [Storage σ] [Storage τ] in
theorem alike_checkSection (entry : Section) (payload : Bytes) :
    Run.Alike Event.call? (Alike S) (Alike S)
      (checkSection entry payload : Run Event BootFailure (Intake σ κ) _)
      (checkSection entry payload) := by
  refine Run.Alike.emit.bind fun _ => Run.Alike.mapFailure ?_
  exact (Run.Alike.refl _).onPart (fun _ _ h => h.crypto.symm)
    fun _ _ _ _ h hcrypto => ⟨h.storage, hcrypto.symm, h.buffer⟩

omit [Storage σ] [Storage τ] in
theorem alike_unlockRange (start stop : Nat) (model : Model) :
    Run.Alike Event.call? (Alike S) (Alike S)
      (unlockRange start stop model : Run Event BootFailure (Intake σ κ) _)
      (unlockRange start stop model) := by
  refine Run.Alike.emit.bind fun _ => .ofStep fun s t hst => ?_
  rw [hst.buffer, hst.crypto]
  exact ⟨rfl, hst.storage, rfl, rfl⟩

omit [Storage σ] [Storage τ] [Crypto κ] in
theorem alike_parse :
    Run.Alike Event.call? (Alike S) (Alike S)
      (parse : Run Event BootFailure (Intake σ κ) _) parse := by
  apply Run.Alike.get_bind
  intro intake intake' hsame
  rw [hsame.buffer]
  exact .ofExcept

end Intake

namespace LoadedImage

variable [Crypto κ]

omit [Crypto κ] in
theorem alike_readImage (h : Storage.AnswerAlike path S S') (plan : Plan) :
    Run.Alike Event.call? (Intake.Alike S) (Intake.Alike S)
      (readImage plan : Run Event BootFailure (Intake σ κ) _) (readImage plan) := by
  apply (Intake.alike_getFile h _).bind
  intro size
  apply Run.Alike.get_bind
  intro intake intake' hsame
  rw [hsame.buffer]
  cases intake.buffer.range? 0 size with
  | none => exact .outOfRange
  | some image => exact Run.Alike.ofExcept.bind fun firm => .ite (fun _ => .pure) fun _ => .throw

theorem alike_readInstalled (h : Storage.AnswerAlike path S S') (plan : Plan) :
    Run.Alike Event.call? (Intake.Alike S) (Intake.Alike S)
      (readInstalled plan : Run Event BootFailure (Intake σ κ) _) (readInstalled plan) := by
  apply (Intake.alike_readTitle h _ _).bind
  intro installed
  refine Intake.alike_decryptTitle.bind fun _ => Intake.alike_parse.bind fun firm => ?_
  apply (Run.Alike.forM fun s => Intake.alike_checkSection s _).bind
  exact fun _ => Run.Alike.emit.bind fun _ => .pure

omit [Storage σ] [Storage τ] in
theorem alike_unlock (plan : Plan) :
    Run.Alike Event.call? (Intake.Alike S) (Intake.Alike S)
      (unlock plan : Run Event BootFailure (Intake σ κ) _) (unlock plan) := by
  apply Intake.alike_parse.bind
  intro firm
  have hmove : Run.Alike Event.call? (Intake.Alike S) (Intake.Alike S)
      (moveEntry plan.title firm : Run Event BootFailure (Intake σ κ) _)
      (moveEntry plan.title firm) := by
    refine .modify fun s t hst => ?_
    dsimp only
    rw [hst.buffer]
    exact ⟨hst.storage, hst.crypto, rfl⟩
  cases firm.section? plan.title.arm9Slot with
  | none => exact hmove
  | some s => exact (Intake.alike_unlockRange s.start s.stop plan.model).bind fun _ => hmove

theorem alike_load (h : Storage.AnswerAlike path S S') (plan : Plan) (preferCard : Bool) :
    Run.Alike Event.call? (Intake.Alike S) (Intake.Alike S)
      (load plan preferCard : Run Event BootFailure (Intake σ κ) _) (load plan preferCard) := by
  have hread : Run.Alike Event.call? (Intake.Alike S) (Intake.Alike S)
      (read plan preferCard : Run Event BootFailure (Intake σ κ) _) (read plan preferCard) := by
    refine .ite (fun _ => ?_) fun _ => alike_readInstalled h plan
    apply (alike_readImage h plan).attempt.bind
    intro image
    cases image with
    | ok _ => exact .pure
    | error err => exact Run.Alike.emit.bind fun _ => alike_readInstalled h plan
  apply hread.bind
  intro loaded
  refine .ite (fun _ => (alike_unlock plan).bind fun _ => ?_) fun _ => ?_
  all_goals exact Run.Alike.emit.bind fun _ => .pure

end LoadedImage
end BootStage
