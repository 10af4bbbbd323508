import BootStage.Proofs.ContainerViews
import BootStage.Proofs.Loading
/-!
# The protocol of loading

Loading reads the image on the card where that is preferred, turns to the installed title once if
it is not or if the image failed, and unlocks what it has read on New models. Each stage is told
by a relation that lists its calls and what it comes to, in terms of the answers of the storage
and of the cipher engine.
-/

namespace BootStage

def Outcome.behind {ω ε σ α : Type} (events : List ω) (out : Outcome ω ε σ α) :
    Outcome ω ε σ α :=
  ⟨out.result, out.state, events ++ out.events⟩

theorem Run.bind_behind {ω ε σ α β : Type} {m : Run ω ε σ α} {s s' : σ} {events : List ω} {a : α}
    (h : m s = ⟨.ok a, s', events⟩) (next : α → Run ω ε σ β) :
    (m >>= next) s = (next a s').behind events := by
  rw [bind_apply, h]
  rfl

theorem Outcome.behind_pure {ω ε σ α : Type} (events : List ω) (a : α) (s : σ) :
    ((pure a : Run ω ε σ α) s).behind events = ⟨.ok a, s, events⟩ := by
  rw [Run.pure_apply, Outcome.behind, List.append_nil]

namespace LoadedImage

variable {σ κ : Type} [Storage σ] [Crypto κ]

/-! ## The image on the card -/

section

variable (plan : Plan) (start : Intake σ κ)

def imageCall : Call :=
  .getFile plan.title.imagePath start.buffer.size

def imageRead : Transfer StorageFailure Nat σ :=
  Storage.getFile plan.title.imagePath start.buffer start.storage

def afterImage : Intake σ κ :=
  { start with storage := (imageRead plan start).state, buffer := (imageRead plan start).buffer }

omit [Crypto κ] in
theorem called_getFile :
    Run.called (Intake.getFile plan.title.imagePath) start =
      ⟨((imageRead plan start).result.mapError BootFailure.storage).mapError .failed,
        afterImage plan start, [imageCall plan start]⟩ := by
  have hrun : Intake.getFile plan.title.imagePath start =
      (Run.ofExcept ((imageRead plan start).result.mapError BootFailure.storage)
        (afterImage plan start)).behind [.call (imageCall plan start)] := rfl
  rw [Run.called, hrun, Run.ofExcept_apply]
  rfl

end

/-- How the image on the card is judged. What counts is the part of the buffer that was read. -/
inductive ImageEnds (plan : Plan) (read : Transfer StorageFailure Nat σ) :
    Except (Stop BootFailure) Unit → Prop where
  | unreadable (err : StorageFailure) (hread : read.result = .error err) :
      ImageEnds plan read (.error (.failed (.storage err)))
  | overrun (size : Nat) (hread : read.result = .ok size) (hsize : read.buffer.size < size) :
      ImageEnds plan read (.error .outOfRange)
  | malformed (size : Nat) (hread : read.result = .ok size) (hsize : size ≤ read.buffer.size)
      (err : FirmFailure) (hparse : Firm.parse (read.buffer.extract 0 size) = .error err) :
      ImageEnds plan read (.error (.failed (.format err)))
  | foreign (size : Nat) (hread : read.result = .ok size) (hsize : size ≤ read.buffer.size)
      (firm : Firm) (hparse : Firm.parse (read.buffer.extract 0 size) = .ok firm)
      (hmodel : firm.header.isFor plan.model = false) :
      ImageEnds plan read (.error (.failed (.incompatible plan.title)))
  | accepted (size : Nat) (hread : read.result = .ok size) (hsize : size ≤ read.buffer.size)
      (firm : Firm) (hparse : Firm.parse (read.buffer.extract 0 size) = .ok firm)
      (hmodel : firm.header.isFor plan.model = true) :
      ImageEnds plan read (.ok ())

omit [Storage σ] in
theorem ImageEnds.unique {plan : Plan} {read : Transfer StorageFailure Nat σ}
    {result result' : Except (Stop BootFailure) Unit} (h : ImageEnds plan read result)
    (h' : ImageEnds plan read result') : result = result' := by
  cases h <;> cases h' <;> grind

omit [Crypto κ] in
theorem readImage_ends (plan : Plan) (start : Intake σ κ) :
    ∃ result, ImageEnds plan (imageRead plan start) result ∧
      Run.called (readImage plan) start =
        ⟨result, afterImage plan start, [imageCall plan start]⟩ := by
  have hfile := called_getFile plan start
  unfold readImage
  rw [Run.called_bind]
  cases hread : (imageRead plan start).result with
  | error err =>
    rw [hread] at hfile
    exact ⟨_, .unreadable err hread, Run.bind_of_eq_error hfile _⟩
  | ok size =>
    rw [hread] at hfile
    rw [Run.bind_behind hfile, Run.called_bind,
      Run.bind_of_eq_ok (m := Run.called get) (a := afterImage plan start) rfl]
    by_cases hsize : size ≤ (imageRead plan start).buffer.size
    · have hrange : (afterImage plan start).buffer.range? 0 size =
          some ((imageRead plan start).buffer.extract 0 size) :=
        Bytes.range?_eq_some (Nat.zero_le size) hsize
      rw [hrange]
      dsimp only
      rw [Run.called, Run.bind_apply, Run.ofExcept_apply]
      cases hparse : Firm.parse ((imageRead plan start).buffer.extract 0 size) with
      | error err => exact ⟨_, .malformed size hread hsize err hparse, rfl⟩
      | ok firm =>
        dsimp only [Except.mapError, Run.andThen]
        cases hmodel : firm.header.isFor plan.model with
        | false => exact ⟨_, .foreign size hread hsize firm hparse hmodel, rfl⟩
        | true => exact ⟨_, .accepted size hread hsize firm hparse hmodel, rfl⟩
    · have hrange : (afterImage plan start).buffer.range? 0 size = none :=
        Bytes.range?_eq_none (Nat.not_le.1 hsize)
      rw [hrange]
      exact ⟨_, .overrun size hread (Nat.not_le.1 hsize), rfl⟩

/-! ## The installed title -/

section

variable (plan : Plan) (start : Intake σ κ)

def titleCall : Call :=
  .readTitle plan.source plan.title start.buffer.size

def titleRead : Transfer StorageFailure InstalledTitle σ :=
  Storage.readTitle plan.source plan.title start.buffer start.storage

def afterTitle : Intake σ κ :=
  { start with storage := (titleRead plan start).state, buffer := (titleRead plan start).buffer }

omit [Crypto κ] in
theorem called_readTitle :
    Run.called (Intake.readTitle plan.source plan.title) start =
      ⟨((titleRead plan start).result.mapError BootFailure.storage).mapError .failed,
        afterTitle plan start, [titleCall plan start]⟩ := by
  have hrun : Intake.readTitle plan.source plan.title start =
      (Run.ofStep (fun intake : Intake σ κ =>
        ((titleRead plan intake).result.mapError BootFailure.storage, afterTitle plan intake))
        start).behind [.call (titleCall plan start)] := rfl
  rw [Run.called, hrun, Run.ofStep_apply]
  rfl

def openCall : Call :=
  .decryptTitle (titleRead plan start).buffer.size

def titleOpened : Transfer CryptoFailure Unit κ :=
  Crypto.decryptTitle (titleRead plan start).buffer start.crypto

def afterOpening : Intake σ κ :=
  { afterTitle plan start with
    crypto := (titleOpened plan start).state, buffer := (titleOpened plan start).buffer }

theorem called_decryptTitle :
    Run.called Intake.decryptTitle (afterTitle plan start) =
      ⟨((titleOpened plan start).result.mapError BootFailure.crypto).mapError .failed,
        afterOpening plan start, [openCall plan start]⟩ := by
  have hrun : Intake.decryptTitle (afterTitle plan start) =
      (Run.ofStep (fun intake : Intake σ κ =>
        let out := Crypto.decryptTitle intake.buffer intake.crypto
        (out.result.mapError BootFailure.crypto,
          { intake with crypto := out.state, buffer := out.buffer }))
        (afterTitle plan start)).behind [.call (openCall plan start)] := rfl
  rw [Run.called, hrun, Run.ofStep_apply]
  rfl

omit [Storage σ] [Crypto κ] in
theorem called_parse :
    Run.called Intake.parse start =
      ⟨((Firm.parse start.buffer).mapError BootFailure.format).mapError .failed, start, []⟩ := by
  have hrun : Intake.parse start =
      Run.ofExcept ((Firm.parse start.buffer).mapError BootFailure.format) start := rfl
  rw [Run.called, hrun, Run.ofExcept_apply]
  rfl

end

def checkCall (firm : Firm) (s : Section) : Call :=
  .checkSection s (firm.payload s)

/-- The sections are checked one after the other, up to the first that does not match. -/
inductive Checks (firm : Firm) : List Section → κ → Outcome Call BootFailure κ Unit → Prop where
  | done (crypto : κ) : Checks firm [] crypto ⟨.ok (), crypto, []⟩
  | rejected (s : Section) (rest : List Section) (crypto crypto' : κ) (err : CryptoFailure)
      (hcheck : Crypto.checkSection s (firm.payload s) crypto = (.error err, crypto')) :
      Checks firm (s :: rest) crypto
        ⟨.error (.failed (.crypto err)), crypto', [checkCall firm s]⟩
  | passed (s : Section) (rest : List Section) (crypto crypto' : κ)
      (out : Outcome Call BootFailure κ Unit)
      (hcheck : Crypto.checkSection s (firm.payload s) crypto = (.ok (), crypto'))
      (hrest : Checks firm rest crypto' out) :
      Checks firm (s :: rest) crypto (out.behind [checkCall firm s])

/-- The installed title is read and decrypted once, and its sections are checked. The first
failure is what it comes to. -/
inductive Installs (plan : Plan) (start : Intake σ κ) :
    Outcome Call BootFailure (Intake σ κ) LoadedImage → Prop where
  | unreadable (err : StorageFailure) (hread : (titleRead plan start).result = .error err) :
      Installs plan start
        ⟨.error (.failed (.storage err)), afterTitle plan start, [titleCall plan start]⟩
  | locked (installed : InstalledTitle) (hread : (titleRead plan start).result = .ok installed)
      (err : CryptoFailure) (hopen : (titleOpened plan start).result = .error err) :
      Installs plan start
        ⟨.error (.failed (.crypto err)), afterOpening plan start,
          [titleCall plan start, openCall plan start]⟩
  | malformed (installed : InstalledTitle) (hread : (titleRead plan start).result = .ok installed)
      (hopen : (titleOpened plan start).result = .ok ()) (err : FirmFailure)
      (hparse : Firm.parse (afterOpening plan start).buffer = .error err) :
      Installs plan start
        ⟨.error (.failed (.format err)), afterOpening plan start,
          [titleCall plan start, openCall plan start]⟩
  | rejected (installed : InstalledTitle) (hread : (titleRead plan start).result = .ok installed)
      (hopen : (titleOpened plan start).result = .ok ()) (firm : Firm)
      (hparse : Firm.parse (afterOpening plan start).buffer = .ok firm) (stop : Stop BootFailure)
      (crypto : κ) (checks : List Call)
      (hchecks : Checks firm firm.header.sectionList (titleOpened plan start).state
        ⟨.error stop, crypto, checks⟩) :
      Installs plan start
        ⟨.error stop, { afterOpening plan start with crypto },
          titleCall plan start :: openCall plan start :: checks⟩
  | verified (installed : InstalledTitle) (hread : (titleRead plan start).result = .ok installed)
      (hopen : (titleOpened plan start).result = .ok ()) (firm : Firm)
      (hparse : Firm.parse (afterOpening plan start).buffer = .ok firm) (crypto : κ)
      (checks : List Call)
      (hchecks : Checks firm firm.header.sectionList (titleOpened plan start).state
        ⟨.ok (), crypto, checks⟩) :
      Installs plan start
        ⟨.ok ⟨.nand, some installed.version⟩, { afterOpening plan start with crypto },
          titleCall plan start :: openCall plan start :: checks⟩

omit [Storage σ] in
theorem called_checkSection (entry : Section) (payload : Bytes) (start : Intake σ κ) :
    Run.called (Intake.checkSection entry payload) start =
      ⟨((Crypto.checkSection entry payload start.crypto).1.mapError BootFailure.crypto).mapError
          .failed,
        { start with crypto := (Crypto.checkSection entry payload start.crypto).2 },
        [.checkSection entry payload]⟩ := by
  have hrun : Intake.checkSection entry payload start =
      (Run.mapFailure BootFailure.crypto
        (Intake.onCrypto (Run.ofStep (Crypto.checkSection entry payload))) start).behind
          [.call (.checkSection entry payload)] := rfl
  rw [Run.called, hrun, Run.mapFailure, Intake.onCrypto, Run.onPart, Run.ofStep_apply]
  cases (Crypto.checkSection entry payload start.crypto).1 <;> rfl

omit [Storage σ] in
theorem forM_checks (firm : Firm) (sections : List Section) (start : Intake σ κ) :
    ∃ out, Checks firm sections start.crypto out ∧
      Run.called (sections.forM fun s => Intake.checkSection s (firm.payload s)) start =
        ⟨out.result, { start with crypto := out.state }, out.events⟩ := by
  -- A check changes nothing but the cipher engine, which is why the rest starts from any intake.
  induction sections generalizing start with
  | nil => exact ⟨_, .done start.crypto, rfl⟩
  | cons s rest ih =>
    have hstep := called_checkSection s (firm.payload s) start
    have hcons : Run.called ((s :: rest).forM fun s => Intake.checkSection s (firm.payload s)) =
        Run.called (Intake.checkSection s (firm.payload s)) >>= fun _ =>
          Run.called (rest.forM fun s => Intake.checkSection s (firm.payload s)) :=
      Run.called_bind (σ := Intake σ κ) _ _
    rw [hcons]
    cases hcheck : Crypto.checkSection s (firm.payload s) start.crypto with
    | mk result crypto =>
      rw [hcheck] at hstep
      cases result with
      | error err =>
        refine ⟨_, .rejected s rest start.crypto crypto err hcheck, ?_⟩
        exact Run.bind_of_eq_error hstep _
      | ok checked =>
        obtain ⟨out, hrest, hcalled⟩ := ih { start with crypto }
        refine ⟨_, .passed s rest start.crypto crypto out hcheck hrest, ?_⟩
        rw [Run.bind_behind hstep, hcalled]
        rfl

theorem readInstalled_installs (plan : Plan) (start : Intake σ κ) :
    Installs plan start (Run.called (readInstalled plan) start) := by
  have htitle := called_readTitle plan start
  have hopened := called_decryptTitle plan start
  have hparsed := called_parse (afterOpening plan start)
  unfold readInstalled
  rw [Run.called_bind]
  cases hread : (titleRead plan start).result with
  | error err =>
    rw [hread] at htitle
    rw [Run.bind_of_eq_error htitle]
    exact .unreadable err hread
  | ok installed =>
    rw [hread] at htitle
    rw [Run.bind_behind htitle, Run.called_bind]
    cases hopen : (titleOpened plan start).result with
    | error err =>
      rw [hopen] at hopened
      rw [Run.bind_of_eq_error hopened]
      exact .locked installed hread err hopen
    | ok _ =>
      rw [hopen] at hopened
      rw [Run.bind_behind hopened, Run.called_bind]
      cases hparse : Firm.parse (afterOpening plan start).buffer with
      | error err =>
        rw [hparse] at hparsed
        rw [Run.bind_of_eq_error hparsed]
        exact .malformed installed hread hopen err hparse
      | ok firm =>
        rw [hparse] at hparsed
        rw [Run.bind_behind hparsed, Run.called_bind]
        obtain ⟨out, hchecks, hcalled⟩ :=
          forM_checks firm firm.header.sectionList (afterOpening plan start)
        obtain ⟨result, crypto, checks⟩ := out
        cases result with
        | error stop =>
          rw [Run.bind_of_eq_error hcalled]
          exact .rejected installed hread hopen firm hparse stop crypto checks hchecks
        | ok _ =>
          rw [Run.bind_behind hcalled, Run.called_notice_bind, Run.called_pure,
            Outcome.behind_pure]
          exact .verified installed hread hopen firm hparse crypto checks hchecks

/-! ## Unlocking -/

section

variable (plan : Plan) (start : Intake σ κ) (s : Section)

def entered : Intake σ κ :=
  { start with buffer :=
      start.buffer.overwrite ContainerHeader.arm9EntryPos (.ofWord (unlockedEntry plan.title)) }

def arm9Call : Call :=
  .decryptArm9 (s.stop - s.start) plan.model

def arm9Opened : Transfer CryptoFailure Unit κ :=
  Crypto.decryptArm9 (start.buffer.extract s.start s.stop) plan.model start.crypto

def afterArm9 : Intake σ κ :=
  { start with
    crypto := (arm9Opened plan start s).state
    buffer := start.buffer.overwrite s.start (arm9Opened plan start s).buffer }

omit [Storage σ] in
theorem called_unlockRange :
    Run.called (Intake.unlockRange s.start s.stop plan.model) start =
      ⟨((arm9Opened plan start s).result.mapError BootFailure.crypto).mapError .failed,
        afterArm9 plan start s, [arm9Call plan s]⟩ := by
  have hrun : Intake.unlockRange s.start s.stop plan.model start =
      (Run.ofStep (fun intake : Intake σ κ =>
        ((arm9Opened plan intake s).result.mapError BootFailure.crypto, afterArm9 plan intake s))
        start).behind [.call (arm9Call plan s)] := rfl
  rw [Run.called, hrun, Run.ofStep_apply]
  rfl

omit [Storage σ] [Crypto κ] in
theorem called_moveEntry (firm : Firm) :
    Run.called (moveEntry plan.title firm) start = ⟨.ok (), entered plan start, []⟩ := by
  have hmodify : ∀ change : Intake σ κ → Intake σ κ,
      Run.called (modify change : Run Event BootFailure (Intake σ κ) PUnit) start =
        ⟨.ok (), change start, []⟩ := fun _ => rfl
  unfold moveEntry
  rw [hmodify]
  dsimp only [Firm.withArm9Entry, entered]

end

/-- The ARM9 binary is decrypted where the container has one, and then entered past its loader. -/
inductive Unlocks (plan : Plan) (start : Intake σ κ) :
    Outcome Call BootFailure (Intake σ κ) Unit → Prop where
  | malformed (err : FirmFailure) (hparse : Firm.parse start.buffer = .error err) :
      Unlocks plan start ⟨.error (.failed (.format err)), start, []⟩
  | absent (firm : Firm) (hparse : Firm.parse start.buffer = .ok firm)
      (hs : firm.section? plan.title.arm9Slot = none) :
      Unlocks plan start ⟨.ok (), entered plan start, []⟩
  | locked (firm : Firm) (hparse : Firm.parse start.buffer = .ok firm) (s : Section)
      (hs : firm.section? plan.title.arm9Slot = some s) (err : CryptoFailure)
      (hopen : (arm9Opened plan start s).result = .error err) :
      Unlocks plan start
        ⟨.error (.failed (.crypto err)), afterArm9 plan start s, [arm9Call plan s]⟩
  | opened (firm : Firm) (hparse : Firm.parse start.buffer = .ok firm) (s : Section)
      (hs : firm.section? plan.title.arm9Slot = some s)
      (hopen : (arm9Opened plan start s).result = .ok ()) :
      Unlocks plan start
        ⟨.ok (), entered plan (afterArm9 plan start s), [arm9Call plan s]⟩

omit [Storage σ] in
theorem unlock_unlocks (plan : Plan) (start : Intake σ κ) :
    Unlocks plan start (Run.called (unlock plan) start) := by
  have hparsed := called_parse start
  unfold unlock
  rw [Run.called_bind]
  cases hparse : Firm.parse start.buffer with
  | error err =>
    rw [hparse] at hparsed
    rw [Run.bind_of_eq_error hparsed]
    exact .malformed err hparse
  | ok firm =>
    rw [hparse] at hparsed
    rw [Run.bind_of_eq_ok hparsed]
    cases hs : firm.section? plan.title.arm9Slot with
    | none =>
      dsimp only
      rw [called_moveEntry]
      exact .absent firm hparse hs
    | some s =>
      have hopened := called_unlockRange plan start s
      dsimp only
      rw [Run.called_bind]
      cases hopen : (arm9Opened plan start s).result with
      | error err =>
        rw [hopen] at hopened
        rw [Run.bind_of_eq_error hopened]
        exact .locked firm hparse s hs err hopen
      | ok _ =>
        rw [hopen] at hopened
        rw [Run.bind_behind hopened, called_moveEntry]
        exact .opened firm hparse s hs hopen

/-! ## The whole protocol -/

/-- The installed title is wanted where the card is not preferred or its image failed. -/
def WantsTitle (plan : Plan) (preferCard : Bool) (start : Intake σ κ) : Prop :=
  preferCard = false ∨ ∃ err, ImageEnds plan (imageRead plan start) (.error (.failed err))

omit [Crypto κ] in
theorem ImageEnds.not_wantsTitle {plan : Plan} {start : Intake σ κ}
    {result : Except (Stop BootFailure) Unit} (h : ImageEnds plan (imageRead plan start) result)
    (hkept : ∀ err, result ≠ .error (.failed err)) : ¬WantsTitle plan true start := by
  rintro (hfalse | ⟨err, hfails⟩)
  · cases hfalse
  · exact hkept err (h.unique hfails)

def beforeTitle (plan : Plan) (preferCard : Bool) (start : Intake σ κ) : Intake σ κ :=
  if preferCard then afterImage plan start else start

/-- Reading turns to the installed title once, if it turns to it at all. -/
inductive Reads (plan : Plan) (start : Intake σ κ) :
    Bool → Outcome Call BootFailure (Intake σ κ) LoadedImage → Prop where
  | overrun (hends : ImageEnds plan (imageRead plan start) (.error .outOfRange)) :
      Reads plan start true ⟨.error .outOfRange, afterImage plan start, [imageCall plan start]⟩
  | onCard (hends : ImageEnds plan (imageRead plan start) (.ok ())) :
      Reads plan start true ⟨.ok ⟨.card, none⟩, afterImage plan start, [imageCall plan start]⟩
  | fallback (err : BootFailure)
      (hends : ImageEnds plan (imageRead plan start) (.error (.failed err)))
      (out : Outcome Call BootFailure (Intake σ κ) LoadedImage)
      (hinstalls : Installs plan (afterImage plan start) out) :
      Reads plan start true (out.behind [imageCall plan start])
  | direct (out : Outcome Call BootFailure (Intake σ κ) LoadedImage)
      (hinstalls : Installs plan start out) : Reads plan start false out

theorem read_reads (plan : Plan) (preferCard : Bool) (start : Intake σ κ) :
    Reads plan start preferCard (Run.called (read plan preferCard) start) := by
  cases preferCard with
  | false => exact .direct _ (readInstalled_installs plan start)
  | true =>
    obtain ⟨result, hends, hcalled⟩ := readImage_ends plan start
    unfold read
    rw [if_pos rfl, Run.called_bind, Run.bind_apply, Run.called_attempt, Run.attempt, hcalled]
    -- Only a failure is attempted again; a range that is out of bounds ends the run for good.
    cases result with
    | ok _ => exact .onCard hends
    | error stop =>
      cases stop with
      | failed err =>
        change Reads plan start true ((Run.called
          (Run.emit (.notice (.cardImageRejected plan.title err)) >>= fun _ => readInstalled plan)
            (afterImage plan start)).behind [imageCall plan start])
        rw [Run.called_notice_bind]
        exact .fallback err hends _ (readInstalled_installs plan (afterImage plan start))
      | outOfRange => exact .overrun hends
      | stuck => cases hends

/-- On New models what was read is unlocked. -/
inductive Loads (plan : Plan) (reading : Outcome Call BootFailure (Intake σ κ) LoadedImage) :
    Outcome Call BootFailure (Intake σ κ) LoadedImage → Prop where
  | stopped (stop : Stop BootFailure) (hread : reading.result = .error stop) :
      Loads plan reading reading
  | asRead (loaded : LoadedImage) (hread : reading.result = .ok loaded)
      (hmodel : plan.model = .old) : Loads plan reading reading
  | unlocked (loaded : LoadedImage) (hread : reading.result = .ok loaded)
      (hmodel : plan.model = .new) (last : Outcome Call BootFailure (Intake σ κ) Unit)
      (hunlocks : Unlocks plan reading.state last) :
      Loads plan reading
        ⟨last.result.map fun _ => loaded, last.state, reading.events ++ last.events⟩

theorem load_loads (plan : Plan) (preferCard : Bool) (start : Intake σ κ) :
    Loads plan (Run.called (read plan preferCard) start)
      (Run.called (load plan preferCard) start) := by
  unfold load
  rw [Run.called_bind]
  cases hread : Run.called (read plan preferCard) start with
  | mk result middle calls =>
    cases result with
    | error stop =>
      rw [Run.bind_of_eq_error hread]
      exact .stopped stop rfl
    | ok loaded =>
      rw [Run.bind_behind hread]
      cases hmodel : plan.model with
      | old =>
        rw [if_neg nofun, Run.called_notice_bind, Run.called_pure, Outcome.behind_pure]
        exact .asRead loaded rfl hmodel
      | new =>
        let reading : Outcome Call BootFailure (Intake σ κ) LoadedImage :=
          ⟨.ok loaded, middle, calls⟩
        have hunlocks : Unlocks plan reading.state (Run.called (unlock plan) middle) :=
          unlock_unlocks plan middle
        rw [if_pos rfl, Run.called_bind]
        cases hunlock : Run.called (unlock plan) middle with
        | mk result final last =>
          rw [hunlock] at hunlocks
          cases result with
          | error stop =>
            rw [Run.bind_of_eq_error hunlock]
            exact .unlocked loaded rfl hmodel _ hunlocks
          | ok _ =>
            rw [Run.bind_behind hunlock, Run.called_notice_bind, Run.called_pure,
              Outcome.behind_pure]
            exact .unlocked loaded rfl hmodel _ hunlocks

/-! ## What the calls and the result tell -/

omit [Storage σ] in
/-- What is checked is a first part of the sections. -/
theorem Checks.events_eq_map {firm : Firm} {sections : List Section} {crypto : κ}
    {out : Outcome Call BootFailure κ Unit} (h : Checks firm sections crypto out) :
    ∃ count, out.events = (sections.take count).map (checkCall firm) := by
  induction h with
  | done => exact ⟨0, rfl⟩
  | rejected => exact ⟨1, rfl⟩
  | passed s rest _ _ out _ _ ih =>
    obtain ⟨count, hcount⟩ := ih
    refine ⟨count + 1, ?_⟩
    rw [List.take_succ_cons, List.map_cons, ← hcount]
    rfl

omit [Storage σ] in
/-- Where no check fails, every section was checked and matched. -/
theorem Checks.of_ok {firm : Firm} {sections : List Section} {crypto : κ}
    {out : Outcome Call BootFailure κ Unit} (h : Checks firm sections crypto out)
    (hok : out.result = .ok ()) {s : Section} (hs : s ∈ sections) :
    checkCall firm s ∈ out.events ∧
      ∃ before after : κ, Crypto.checkSection s (firm.payload s) before = (.ok (), after) := by
  induction h with
  | done => cases hs
  | rejected => cases hok
  | passed first rest before after out hcheck _ ih =>
    rcases List.mem_cons.1 hs with rfl | hs
    · exact ⟨List.mem_cons_self, before, after, hcheck⟩
    · obtain ⟨hcall, hmatch⟩ := ih hok hs
      exact ⟨List.mem_cons_of_mem _ hcall, hmatch⟩

/-- The calls on an installed title: none is made twice, and the sections that are checked come
in their order. -/
def InOrder (plan : Plan) (start : Intake σ κ) (calls : List Call) : Prop :=
  calls = [titleCall plan start] ∨ calls = [titleCall plan start, openCall plan start] ∨
    ∃ firm count, Firm.parse (afterOpening plan start).buffer = .ok firm ∧
      calls = titleCall plan start :: openCall plan start ::
        (firm.header.sectionList.take count).map (checkCall firm)

theorem Installs.inOrder {plan : Plan} {start : Intake σ κ}
    {out : Outcome Call BootFailure (Intake σ κ) LoadedImage} (h : Installs plan start out) :
    InOrder plan start out.events := by
  cases h with
  | unreadable => exact .inl rfl
  | locked | malformed => exact .inr (.inl rfl)
  | rejected _ _ _ firm hparse _ _ _ hchecks | verified _ _ _ firm hparse _ _ hchecks =>
    obtain ⟨count, hcount⟩ := hchecks.events_eq_map
    exact .inr (.inr ⟨firm, count, hparse, congrArg (_ :: _ :: ·) hcount⟩)

/-- An installed title is taken with its version, once every section of it was checked and
matched. -/
structure Verified (plan : Plan) (start : Intake σ κ) (version : Option UInt32)
    (calls : List Call) : Prop where
  version : ∃ installed, (titleRead plan start).result = .ok installed ∧
    version = some installed.version
  sections : ∃ firm, Firm.parse (afterOpening plan start).buffer = .ok firm ∧
    ∀ s, firm.section? s.index = some s → checkCall firm s ∈ calls ∧
      ∃ before after : κ, Crypto.checkSection s (firm.payload s) before = (.ok (), after)

theorem Installs.of_ok {plan : Plan} {start : Intake σ κ} {loaded : LoadedImage}
    {out : Outcome Call BootFailure (Intake σ κ) LoadedImage} (h : Installs plan start out)
    (hok : out.result = .ok loaded) :
    loaded.source = .nand ∧ Verified plan start loaded.version out.events := by
  cases h with
  | unreadable | locked | malformed | rejected => cases hok
  | verified installed hread hopen firm hparse crypto checks hchecks =>
    obtain rfl := Except.ok.inj hok
    refine ⟨rfl, ⟨installed, hread, rfl⟩, firm, hparse, fun s hs => ?_⟩
    obtain ⟨hcall, hmatch⟩ := hchecks.of_ok rfl (ContainerHeader.mem_sectionList.2 hs)
    exact ⟨List.mem_cons_of_mem _ (List.mem_cons_of_mem _ hcall), hmatch⟩

/-- Reading makes the calls on the image, where it is preferred, and then those on the installed
title, where it is wanted. -/
structure ReadsAs (plan : Plan) (preferCard : Bool) (start : Intake σ κ) (install : List Call)
    (out : Outcome Call BootFailure (Intake σ κ) LoadedImage) : Prop where
  calls : out.events = (if preferCard then [imageCall plan start] else []) ++ install
  installs : WantsTitle plan preferCard start →
    ∃ installed, Installs plan (beforeTitle plan preferCard start) installed ∧
      install = installed.events ∧ out.result = installed.result
  spared : ¬WantsTitle plan preferCard start → install = [] ∧
    ∀ loaded, out.result = .ok loaded →
      loaded = ⟨.card, none⟩ ∧ preferCard = true ∧
        ImageEnds plan (imageRead plan start) (.ok ())

theorem Reads.readsAs {plan : Plan} {preferCard : Bool} {start : Intake σ κ}
    {out : Outcome Call BootFailure (Intake σ κ) LoadedImage}
    (h : Reads plan start preferCard out) :
    ∃ install, ReadsAs plan preferCard start install out := by
  cases h with
  | overrun hends =>
    have hspared := hends.not_wantsTitle nofun
    exact ⟨[], rfl, fun hwants => absurd hwants hspared, fun _ => ⟨rfl, nofun⟩⟩
  | onCard hends =>
    have hspared := hends.not_wantsTitle nofun
    refine ⟨[], rfl, fun hwants => absurd hwants hspared, fun _ => ⟨rfl, fun loaded hok => ?_⟩⟩
    exact ⟨(Except.ok.inj hok).symm, rfl, hends⟩
  | fallback err hends installed hinstalls =>
    have hwants : WantsTitle plan true start := .inr ⟨err, hends⟩
    exact ⟨_, rfl, fun _ => ⟨installed, hinstalls, rfl, rfl⟩, fun hspared => absurd hwants hspared⟩
  | direct _ hinstalls =>
    have hwants : WantsTitle plan false start := .inl rfl
    exact ⟨_, rfl, fun _ => ⟨_, hinstalls, rfl, rfl⟩, fun hspared => absurd hwants hspared⟩

omit [Storage σ] in
theorem Unlocks.events_eq {plan : Plan} {start : Intake σ κ}
    {out : Outcome Call BootFailure (Intake σ κ) Unit} (h : Unlocks plan start out) :
    out.events = [] ∨ ∃ firm s, Firm.parse start.buffer = .ok firm ∧
      firm.section? plan.title.arm9Slot = some s ∧ out.events = [arm9Call plan s] := by
  cases h with
  | malformed | absent => exact .inl rfl
  | locked firm hparse s hs | opened firm hparse s hs => exact .inr ⟨firm, s, hparse, hs, rfl⟩

/-- What follows reading is at most one call, and no failure of reading is lost. -/
structure LoadsAs (plan : Plan) (unlock : List Call)
    (reading out : Outcome Call BootFailure (Intake σ κ) LoadedImage) : Prop where
  calls : out.events = reading.events ++ unlock
  stops : ∀ stop, reading.result = .error stop → out.result = .error stop ∧ unlock = []
  loaded : ∀ loaded, out.result = .ok loaded → reading.result = .ok loaded
  unlock : unlock = [] ∨ plan.model = .new ∧
    ∃ firm s, Firm.parse reading.state.buffer = .ok firm ∧
      firm.section? plan.title.arm9Slot = some s ∧ unlock = [arm9Call plan s]

omit [Storage σ] in
theorem Loads.loadsAs {plan : Plan}
    {reading out : Outcome Call BootFailure (Intake σ κ) LoadedImage}
    (h : Loads plan reading out) : ∃ unlock, LoadsAs plan unlock reading out := by
  cases h with
  | stopped stop hread =>
    exact ⟨[], (List.append_nil _).symm, fun _ hstop => ⟨hstop, rfl⟩, fun _ hok => hok, .inl rfl⟩
  | asRead loaded hread hmodel =>
    exact ⟨[], (List.append_nil _).symm, fun _ hstop => ⟨hstop, rfl⟩, fun _ hok => hok, .inl rfl⟩
  | unlocked loaded hread hmodel last hunlocks =>
    refine ⟨last.events, rfl, fun stop hstop => ?_, fun other hok => ?_, ?_⟩
    · rw [hread] at hstop
      cases hstop
    · rw [hread, ← hok]
      cases hlast : last.result with
      | error stop =>
        rw [hlast] at hok
        cases hok
      | ok _ => rfl
    · exact hunlocks.events_eq.imp_right fun hcall => ⟨hmodel, hcall⟩

/-- What loading keeps to, in its calls and in what it comes to. -/
structure Protocol (plan : Plan) (preferCard : Bool) (start : Intake σ κ)
    (reading out : Outcome Call BootFailure (Intake σ κ) LoadedImage)
    (install unlock : List Call) : Prop where
  reads : Reads plan start preferCard reading
  loads : Loads plan reading out
  /-- The image on the card is read first where it is preferred, and else never. -/
  calls : out.events = (if preferCard then [imageCall plan start] else []) ++ (install ++ unlock)
  /-- The installed title is turned to just when the card is not preferred or its image failed,
  and its first failure is returned. -/
  installs : WantsTitle plan preferCard start →
    ∃ installed, Installs plan (beforeTitle plan preferCard start) installed ∧
      install = installed.events ∧
      ∀ stop, installed.result = .error stop → out.result = .error stop ∧ unlock = []
  spared : ¬WantsTitle plan preferCard start → install = []
  inOrder : install = [] ∨ InOrder plan (beforeTitle plan preferCard start) install
  /-- On New models an ARM9 section that is present is decrypted, after all else. -/
  unlock : unlock = [] ∨ plan.model = .new ∧
    ∃ firm s, Firm.parse reading.state.buffer = .ok firm ∧
      firm.section? plan.title.arm9Slot = some s ∧ unlock = [arm9Call plan s]
  onCard : ∀ version, out.result = .ok ⟨.card, version⟩ →
    version = none ∧ preferCard = true ∧ ImageEnds plan (imageRead plan start) (.ok ()) ∧
      install = []
  onNand : ∀ version, out.result = .ok ⟨.nand, version⟩ →
    Verified plan (beforeTitle plan preferCard start) version install

/-- Loading keeps to its protocol, whatever the storage and the cipher engine answer. -/
theorem load_protocol (plan : Plan) (preferCard : Bool) (start : Intake σ κ) :
    ∃ install unlock, Protocol plan preferCard start (Run.called (read plan preferCard) start)
      (Run.called (load plan preferCard) start) install unlock := by
  have hreads := read_reads plan preferCard start
  have hloads := load_loads plan preferCard start
  obtain ⟨install, hread⟩ := hreads.readsAs
  obtain ⟨unlock, hload⟩ := hloads.loadsAs
  refine ⟨install, unlock, ?_⟩
  constructor
  case reads => exact hreads
  case loads => exact hloads
  case calls => rw [hload.calls, hread.calls, List.append_assoc]
  case installs =>
    intro hwants
    obtain ⟨installed, hinstalls, hinstall, hresult⟩ := hread.installs hwants
    exact ⟨installed, hinstalls, hinstall, fun stop hfails =>
      hload.stops stop (hresult.trans hfails)⟩
  case spared => exact fun hspared => (hread.spared hspared).1
  case inOrder =>
    by_cases hwants : WantsTitle plan preferCard start
    · obtain ⟨installed, hinstalls, rfl, -⟩ := hread.installs hwants
      exact .inr hinstalls.inOrder
    · exact .inl (hread.spared hwants).1
  case unlock => exact hload.unlock
  case onCard =>
    intro version hloaded
    have hok := hload.loaded _ hloaded
    by_cases hwants : WantsTitle plan preferCard start
    · obtain ⟨installed, hinstalls, -, hresult⟩ := hread.installs hwants
      cases (hinstalls.of_ok (hresult.symm.trans hok)).1
    · obtain ⟨hinstall, hcard⟩ := hread.spared hwants
      obtain ⟨hversion, hprefer, hends⟩ := hcard _ hok
      exact ⟨congrArg LoadedImage.version hversion, hprefer, hends, hinstall⟩
  case onNand =>
    intro version hloaded
    have hok := hload.loaded _ hloaded
    by_cases hwants : WantsTitle plan preferCard start
    · obtain ⟨installed, hinstalls, rfl, hresult⟩ := hread.installs hwants
      exact (hinstalls.of_ok (hresult.symm.trans hok)).2
    · have hcard := ((hread.spared hwants).2 _ hok).1
      cases congrArg LoadedImage.source hcard

end LoadedImage
end BootStage
