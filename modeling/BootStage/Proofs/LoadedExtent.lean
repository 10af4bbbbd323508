import BootStage.Device.InMemory
import BootStage.Proofs.LoadProtocol
/-!
# How far a loaded container reaches

An image from the card is judged by the bytes that were read, so every section of it ends among
them. An installed title is judged by the whole buffer, however few bytes of it the title was
read to, so its sections may reach into what the buffer held before.
-/

namespace BootStage

namespace Firm

def EndsWithin (firm : Firm) (extent : Nat) : Prop :=
  ∀ slot s, firm.section? slot = some s → s.stop ≤ extent

/-- The headers at the start of two images are the same, but for the ARM9 entrypoint. -/
def SameHeader (b b' : Bytes) : Prop :=
  ∀ i < ContainerHeader.size, i < 0xC ∨ 0x10 ≤ i → b'[i]? = b[i]?

theorem endsWithin_read_iff (bytes : Bytes) (extent : Nat) :
    EndsWithin ⟨ContainerHeader.read bytes, bytes⟩ extent ↔
      ∀ slot < 4, slotSize bytes slot ≠ 0 →
        (slotOffset bytes slot).toNat + (slotSize bytes slot).toNat ≤ extent := by
  have hstop : ∀ slot, Section.stop
      { ContainerHeader.readSlot bytes (0x40 + 0x30 * slot) with index := slot } =
        (slotOffset bytes slot).toNat + (slotSize bytes slot).toNat := by
    intro slot
    rw [Section.stop, size_readSlot]
    rfl
  constructor
  · intro h slot hslot hused
    rw [← hstop slot]
    apply h slot
    rw [Firm.section?, section?_read bytes hslot, if_neg hused]
  · intro h slot s hs
    obtain ⟨hslot, -⟩ := ContainerHeader.section?_eq_some_iff.1 hs
    rw [Firm.section?, section?_read bytes hslot] at hs
    split at hs
    · cases hs
    · next hused =>
      obtain rfl := Option.some.inj hs
      rw [hstop slot]
      exact h slot hslot hused

variable {b b' : Bytes}

theorem SameHeader.slotOffset_eq (h : SameHeader b b') {slot : Nat} (hslot : slot < 4) :
    slotOffset b' slot = slotOffset b slot :=
  Bytes.word_congr fun i _ _ => h i (by unfold ContainerHeader.size; omega) (by omega)

theorem SameHeader.slotSize_eq (h : SameHeader b b') {slot : Nat} (hslot : slot < 4) :
    slotSize b' slot = slotSize b slot :=
  Bytes.word_congr fun i _ _ => h i (by unfold ContainerHeader.size; omega) (by omega)

theorem SameHeader.trans {b'' : Bytes} (h : SameHeader b b') (h' : SameHeader b' b'') :
    SameHeader b b'' :=
  fun i hi hentry => (h' i hi hentry).trans (h i hi hentry)

/-- A container whose header was kept and whose bytes were not cut is one with the same
sections. -/
theorem parse_of_sameHeader (h : SameHeader b b') (hsize : b.size ≤ b'.size) {firm : Firm}
    (hparse : parse b = .ok firm) :
    ∃ firm', parse b' = .ok firm' ∧ ∀ extent, firm.EndsWithin extent → firm'.EndsWithin extent := by
  obtain ⟨hlong, hmagic, hfits, rfl⟩ := (parse_eq_ok_iff b firm).1 hparse
  have hmagic' : b'.window 0 4 = b.window 0 4 :=
    Bytes.window_congr fun i _ _ => h i (by unfold ContainerHeader.size; omega) (by omega)
  have hfits' : ∀ slot < 4, SlotFits b' slot := by
    intro slot hslot hused
    rw [h.slotSize_eq hslot] at hused
    rw [h.slotSize_eq hslot, h.slotOffset_eq hslot]
    exact Nat.le_trans (hfits slot hslot hused) hsize
  refine ⟨_, (parse_eq_ok_iff b' _).2 ⟨by omega, hmagic'.trans hmagic, hfits', rfl⟩, ?_⟩
  intro extent hends
  rw [endsWithin_read_iff] at hends ⊢
  intro slot hslot hused
  rw [h.slotSize_eq hslot] at hused
  rw [h.slotSize_eq hslot, h.slotOffset_eq hslot]
  exact hends slot hslot hused

end Firm

namespace LoadedImage

variable {σ κ : Type} [Storage σ] [Crypto κ]

/-- How far the sections of what was loaded reach: within the bytes that the card gave, but within
the whole buffer for an installed title. -/
def Reaches (plan : Plan) (start : Intake σ κ) (source : ImageSource) (firm : Firm) : Prop :=
  match source with
  | .card => ∃ size, (imageRead plan start).result = .ok size ∧ firm.EndsWithin size
  | .nand => firm.EndsWithin start.buffer.size

/-- Decrypting the ARM9 section of the container in the buffer leaves the header alone. -/
def KeepsHeader (plan : Plan) (middle : Intake σ κ) : Prop :=
  ∀ firm s, Firm.parse middle.buffer = .ok firm → firm.section? plan.title.arm9Slot = some s →
    ∀ i < ContainerHeader.size, (afterArm9 plan middle s).buffer[i]? = middle.buffer[i]?

variable {plan : Plan} {start : Intake σ κ}

omit [Crypto κ] in
theorem Reaches.of_endsWithin {source : ImageSource} {firm firm' : Firm}
    (h : Reaches plan start source firm)
    (hends : ∀ extent, firm.EndsWithin extent → firm'.EndsWithin extent) :
    Reaches plan start source firm' := by
  cases source with
  | nand => exact hends _ h
  | card =>
    obtain ⟨size, hread, hin⟩ := h
    exact ⟨size, hread, hends _ hin⟩

theorem size_afterOpening : (afterOpening plan start).buffer.size = start.buffer.size := by
  have hread := Storage.size_readTitle plan.source plan.title start.buffer start.storage
  have hopen := Crypto.size_decryptTitle (titleRead plan start).buffer start.crypto
  exact hopen.trans hread

omit [Crypto κ] in
theorem size_afterImage : (afterImage plan start).buffer.size = start.buffer.size :=
  Storage.size_getFile _ _ _

theorem Installs.reaches {out : Outcome Call BootFailure (Intake σ κ) LoadedImage}
    (h : Installs plan start out) {loaded : LoadedImage} (hok : out.result = .ok loaded) :
    ∃ firm, Firm.parse out.state.buffer = .ok firm ∧ firm.EndsWithin start.buffer.size := by
  cases h with
  | unreadable | locked | malformed | rejected => cases hok
  | verified _ _ _ firm hparse =>
    have hfits := Firm.sectionsFit_of_parse hparse
    have hbytes : firm.bytes = (afterOpening plan start).buffer := by
      obtain ⟨-, -, -, rfl⟩ := (Firm.parse_eq_ok_iff _ _).1 hparse
      rfl
    rw [Firm.SectionsFit, hbytes, size_afterOpening] at hfits
    exact ⟨firm, hparse, hfits⟩

omit [Crypto κ] in
theorem ImageEnds.reaches (h : ImageEnds plan (imageRead plan start) (.ok ())) :
    ∃ firm, Firm.parse (afterImage plan start).buffer = .ok firm ∧
      Reaches plan start .card firm := by
  cases h with
  | accepted size hread hsize firm hparse _ =>
    have hfits := Firm.sectionsFit_of_parse hparse
    obtain ⟨hlong, -, -, hfirm⟩ := (Firm.parse_eq_ok_iff _ _).1 hparse
    have hcut : ((imageRead plan start).buffer.extract 0 size).size = size := by
      rw [Array.size_extract]
      omega
    -- The header was read as a whole, so it is the one at the start of the buffer.
    have hheader : Firm.SameHeader ((imageRead plan start).buffer.extract 0 size)
        (afterImage plan start).buffer := by
      intro i hi _
      unfold ContainerHeader.size at hi
      rw [Array.getElem?_extract, if_pos (by omega), Nat.zero_add]
      rfl
    obtain ⟨firm', hparse', hends⟩ :=
      Firm.parse_of_sameHeader hheader (by rw [hcut]; exact hsize) hparse
    refine ⟨firm', hparse', size, hread, hends size fun slot s hs => ?_⟩
    have hstop := hfits slot s hs
    rw [hfirm] at hstop
    exact hcut ▸ hstop

theorem Reads.reaches {preferCard : Bool}
    {reading : Outcome Call BootFailure (Intake σ κ) LoadedImage}
    (h : Reads plan start preferCard reading) {loaded : LoadedImage}
    (hok : reading.result = .ok loaded) :
    ∃ firm, Firm.parse reading.state.buffer = .ok firm ∧ Reaches plan start loaded.source firm := by
  cases h with
  | overrun => cases hok
  | onCard hends =>
    obtain rfl := Except.ok.inj hok
    exact hends.reaches
  | fallback err hends out hinstalls =>
    obtain ⟨firm, hparse, hin⟩ := hinstalls.reaches hok
    refine ⟨firm, hparse, ?_⟩
    rw [size_afterImage] at hin
    rw [(hinstalls.of_ok hok).1]
    exact hin
  | direct _ hinstalls =>
    obtain ⟨firm, hparse, hin⟩ := hinstalls.reaches hok
    refine ⟨firm, hparse, ?_⟩
    rw [(hinstalls.of_ok hok).1]
    exact hin

omit [Storage σ] [Crypto κ] in
theorem sameHeader_entered (plan : Plan) (start : Intake σ κ) :
    Firm.SameHeader start.buffer (entered plan start).buffer := by
  intro i _ hentry
  have hword := Bytes.size_ofWord (unlockedEntry plan.title)
  have hpos : ContainerHeader.arm9EntryPos = 0xC := rfl
  rw [entered, Bytes.getElem?_overwrite, if_neg (by omega)]

omit [Storage σ] [Crypto κ] in
theorem size_entered (plan : Plan) (start : Intake σ κ) :
    (entered plan start).buffer.size = start.buffer.size := by
  rw [entered, Bytes.size_overwrite]

omit [Storage σ] in
theorem Unlocks.keeps {middle : Intake σ κ} {out : Outcome Call BootFailure (Intake σ κ) Unit}
    (h : Unlocks plan middle out) (hok : out.result = .ok ()) (hkept : KeepsHeader plan middle) :
    Firm.SameHeader middle.buffer out.state.buffer ∧
      out.state.buffer.size = middle.buffer.size := by
  cases h with
  | malformed | locked => cases hok
  | absent => exact ⟨sameHeader_entered plan middle, size_entered plan middle⟩
  | opened firm hparse s hs =>
    have hopened : Firm.SameHeader middle.buffer (afterArm9 plan middle s).buffer :=
      fun i hi _ => hkept firm s hparse hs i hi
    refine ⟨hopened.trans (sameHeader_entered plan _), ?_⟩
    rw [size_entered, afterArm9, Bytes.size_overwrite]

end LoadedImage

/-! ## A title that was cut off -/

namespace XorCipher

theorem decryptTitle_plain (buffer : Bytes) :
    Crypto.decryptTitle buffer plain = ⟨.ok (), buffer, plain⟩ := by
  have hsame : buffer.map (· ^^^ plain.titleMask) = buffer := by
    simp [plain]
  have hmapped : Crypto.decryptTitle buffer plain =
      ⟨.ok (), buffer.map (· ^^^ plain.titleMask), plain⟩ := rfl
  rw [hmapped, hsame]

theorem decryptArm9_plain (buffer : Bytes) (model : Model) :
    Crypto.decryptArm9 buffer model plain = ⟨.ok (), buffer, plain⟩ := by
  have hsame : buffer.map (· ^^^ plain.arm9Mask) = buffer := by
    simp [plain]
  have hmapped : Crypto.decryptArm9 buffer model plain =
      ⟨.ok (), buffer.map (· ^^^ plain.arm9Mask), plain⟩ := rfl
  rw [hmapped, hsame]

theorem checks_plain {firm : Firm} {sections : List Section} {cipher : XorCipher}
    {out : Outcome Call BootFailure XorCipher Unit}
    (h : LoadedImage.Checks firm sections cipher out) (hplain : cipher = plain) :
    out.result = .ok () ∧ out.state = plain := by
  induction h with
  | done => exact ⟨rfl, hplain⟩
  | rejected s rest cipher cipher' err hcheck =>
    subst hplain
    cases hcheck
  | passed s rest cipher cipher' out hcheck hrest ih =>
    subst hplain
    exact ih (Prod.mk.inj hcheck).2.symm

end XorCipher

namespace LoadedImage

theorem arm9Opened_of_plain (plan : Plan) {middle : Intake FileStore XorCipher}
    (hplain : middle.crypto = .plain) (s : Section) :
    arm9Opened plan middle s = ⟨.ok (), middle.buffer.extract s.start s.stop, .plain⟩ := by
  rw [arm9Opened, hplain]
  exact XorCipher.decryptArm9_plain _ _

theorem keepsHeader_of_plain (plan : Plan) {middle : Intake FileStore XorCipher}
    (hplain : middle.crypto = .plain) : KeepsHeader plan middle := by
  intro firm s _ _ i _
  rw [afterArm9, arm9Opened_of_plain plan hplain]
  dsimp only
  rw [Bytes.overwrite_extract]

/-- Where the cipher leaves everything as it is, a container that is read from an installed title
is verified, whatever it holds. -/
theorem read_plain {σ : Type} [Storage σ] {plan : Plan} {start : Intake σ XorCipher}
    {installed : InstalledTitle} {image : Bytes} {storage : σ} {firm : Firm}
    (htitle : titleRead plan start = ⟨.ok installed, image, storage⟩)
    (hplain : start.crypto = .plain) (h : Firm.parse image = .ok firm) :
    let out := Run.called (read plan false) start
    out.result = .ok ⟨.nand, some installed.version⟩ ∧ out.state = ⟨storage, .plain, image⟩ := by
  have hopened : titleOpened plan start = ⟨.ok (), image, .plain⟩ := by
    rw [titleOpened, htitle, hplain]
    exact XorCipher.decryptTitle_plain image
  have hafter : afterOpening plan start = ⟨storage, .plain, image⟩ := by
    rw [afterOpening, afterTitle, hopened, htitle]
  have hinstalls : Installs plan start (Run.called (read plan false) start) :=
    readInstalled_installs plan start
  generalize Run.called (read plan false) start = out at hinstalls ⊢
  cases hinstalls with
  | unreadable err hfails =>
    rw [htitle] at hfails
    cases hfails
  | locked _ _ err hfails =>
    rw [hopened] at hfails
    cases hfails
  | malformed _ _ _ err hfails =>
    rw [hafter, h] at hfails
    cases hfails
  | rejected _ _ _ _ _ stop _ _ hchecks =>
    rw [hopened] at hchecks
    cases (XorCipher.checks_plain hchecks rfl).1
  | verified found hread _ _ _ crypto _ hchecks =>
    rw [htitle] at hread
    rw [hopened] at hchecks
    obtain rfl := Except.ok.inj hread
    obtain rfl : crypto = .plain := (XorCipher.checks_plain hchecks rfl).2
    rw [hafter]
    exact ⟨rfl, rfl⟩

theorem load_plain {σ : Type} [Storage σ] {plan : Plan} {start : Intake σ XorCipher}
    {installed : InstalledTitle} {image : Bytes} {storage : σ} {firm : Firm}
    (hmodel : plan.model = .old)
    (htitle : titleRead plan start = ⟨.ok installed, image, storage⟩)
    (hplain : start.crypto = .plain) (h : Firm.parse image = .ok firm) :
    (load plan false start : Outcome Event BootFailure _ _).result =
        .ok ⟨.nand, some installed.version⟩ ∧
      (load plan false start : Outcome Event BootFailure _ _).state = ⟨storage, .plain, image⟩ := by
  have hread := read_plain htitle hplain h
  have hloads := load_loads plan false start
  change (Run.called (load plan false) start).result = _ ∧
    (Run.called (load plan false) start).state = _
  generalize Run.called (read plan false) start = reading at hread hloads
  generalize Run.called (load plan false) start = out at hloads ⊢
  cases hloads with
  | stopped | asRead => exact hread
  | unlocked _ _ hnew => cases hmodel.symm.trans hnew

def builtInPlan (model : Model) : Plan :=
  ⟨.cold, .native, .off, model, none, .sys, .sys, none, false⟩

/-- A NAND with a title that was cut off behind its magic, and a buffer that held something
before. -/
def reusing (held : Bytes) : Intake FileStore XorCipher where
  storage := { FileStore.empty with titles := fun _ _ => some (ContainerHeader.magic, 0x52) }
  crypto := .plain
  buffer := held

variable {held : Bytes} {firm : Firm}

theorem titleRead_reusing (h : Firm.parse held = .ok firm) (model : Model) :
    titleRead (builtInPlan model) (reusing held) =
      ⟨.ok ⟨4, 0x52⟩, held, (reusing held).storage⟩ := by
  obtain ⟨hsize, hmagic, -⟩ := (Firm.parse_eq_ok_iff _ _).1 h
  have hreceive : held.receive ContainerHeader.magic =
      (.ok 4, held.overwrite 0 ContainerHeader.magic) := by
    have hmagicSize : ContainerHeader.magic.size = 4 := rfl
    rw [Bytes.receive, if_neg (by omega), hmagicSize]
  have hkept : held.overwrite 0 ContainerHeader.magic = held := by
    have hback := Bytes.overwrite_extract held 0 (0 + 4)
    rw [← Bytes.window, hmagic] at hback
    exact hback
  have hread : titleRead (builtInPlan model) (reusing held) =
      ⟨(held.receive ContainerHeader.magic).1.map (⟨·, 0x52⟩),
        (held.receive ContainerHeader.magic).2, (reusing held).storage⟩ := rfl
  rw [hread, hreceive, hkept]
  rfl

theorem read_reusing (h : Firm.parse held = .ok firm) (model : Model) :
    let out := Run.called (read (builtInPlan model) false) (reusing held)
    out.result = .ok ⟨.nand, some 0x52⟩ ∧ out.state.buffer = held ∧
      out.state.crypto = .plain := by
  obtain ⟨hok, hstate⟩ := read_plain (titleRead_reusing h model) rfl h
  dsimp only
  rw [hstate]
  exact ⟨hok, rfl, rfl⟩

theorem keepsHeader_reusing (h : Firm.parse held = .ok firm) (model : Model) :
    KeepsHeader (builtInPlan model)
      (read (builtInPlan model) false (reusing held) : Outcome Event BootFailure _ _).state := by
  obtain ⟨-, -, hplain⟩ := read_reusing h model
  exact keepsHeader_of_plain _ hplain

/-- A title that was cut off is loaded as the container that the buffer held before. -/
theorem load_reusing (h : Firm.parse held = .ok firm) (model : Model) :
    (load (builtInPlan model) false (reusing held) : Outcome Event BootFailure _ _).result =
        .ok ⟨.nand, some 0x52⟩ ∧
      (model = .old →
        (load (builtInPlan model) false (reusing held) :
          Outcome Event BootFailure _ _).state.buffer = held) := by
  obtain ⟨hread, hbuffer, hplain⟩ := read_reusing h model
  have hloads := load_loads (builtInPlan model) false (reusing held)
  change (Run.called (load (builtInPlan model) false) (reusing held)).result = _ ∧
    (model = .old →
      (Run.called (load (builtInPlan model) false) (reusing held)).state.buffer = held)
  generalize Run.called (read (builtInPlan model) false) (reusing held) = reading
    at hread hbuffer hplain hloads
  generalize Run.called (load (builtInPlan model) false) (reusing held) = out at hloads ⊢
  cases hloads with
  | stopped stop hstop =>
    rw [hread] at hstop
    cases hstop
  | asRead => exact ⟨hread, fun _ => hbuffer⟩
  | unlocked loaded hloaded hmodel last hunlocks =>
    have hnew : model = .new := hmodel
    have hunlocked : last.result = .ok () := by
      cases hunlocks with
      | malformed err hfails =>
        rw [hbuffer, h] at hfails
        cases hfails
      | locked _ _ s _ err hfails =>
        rw [arm9Opened_of_plain _ hplain] at hfails
        cases hfails
      | absent | opened => rfl
    rw [hunlocked, hnew]
    exact ⟨hloaded.symm.trans hread, nofun⟩

/-- Four bytes were read, and a section past them is launched. -/
theorem load_reusing_oneSection :
    ∃ held firm s, Firm.parse held = .ok firm ∧ firm.section? 2 = some s ∧ 4 < s.stop ∧
      (titleRead (builtInPlan .old) (reusing held)).result = .ok ⟨4, 0x52⟩ ∧
      (load (builtInPlan .old) false (reusing held) : Outcome Event BootFailure _ _).result =
        .ok ⟨.nand, some 0x52⟩ ∧
      (load (builtInPlan .old) false (reusing held) : Outcome Event BootFailure _ _).state.buffer =
        held := by
  obtain ⟨hok, hbuffer⟩ := load_reusing PatchSet.parse_oneSection .old
  have hread := congrArg Transfer.result (titleRead_reusing PatchSet.parse_oneSection .old)
  have hlong : ((ContainerHeader.read PatchSet.oneSection).section? 2).any fun s => 4 < s.stop := by
    decide +kernel
  obtain ⟨s, hs, hstop⟩ := (Option.any_eq_true _ _).1 hlong
  exact ⟨PatchSet.oneSection, _, s, PatchSet.parse_oneSection, hs, of_decide_eq_true hstop, hread,
    hok, hbuffer rfl⟩

/-! ## Every firmware that is loaded -/

/-- A firmware that was loaded is a container. Every section of one from the card ends among the
bytes that were read; of an installed title this is known of the whole buffer only. -/
theorem load_reaches {σ κ : Type} [Storage σ] [Crypto κ] (plan : Plan) (preferCard : Bool)
    (start : Intake σ κ) {loaded : LoadedImage}
    (hok : (load plan preferCard start : Outcome Event BootFailure _ _).result = .ok loaded)
    (hkept : plan.model = .new →
      KeepsHeader plan (read plan preferCard start : Outcome Event BootFailure _ _).state) :
    ∃ firm, Firm.parse (load plan preferCard start : Outcome Event BootFailure _ _).state.buffer =
        .ok firm ∧
      Reaches plan start loaded.source firm := by
  have hreads := read_reads plan preferCard start
  have hloads := load_loads plan preferCard start
  change (Run.called (load plan preferCard) start).result = .ok loaded at hok
  change plan.model = .new →
    KeepsHeader plan (Run.called (read plan preferCard) start).state at hkept
  change ∃ firm, Firm.parse (Run.called (load plan preferCard) start).state.buffer = .ok firm ∧ _
  generalize Run.called (read plan preferCard) start = reading at hreads hloads hkept
  generalize Run.called (load plan preferCard) start = out at hloads hok ⊢
  cases hloads with
  | stopped stop hread =>
    rw [hok] at hread
    cases hread
  | asRead _ hread hmodel => exact hreads.reaches hok
  | unlocked found hread hmodel last hunlocks =>
    have hlast : last.result = .ok () ∧ found = loaded := by
      cases hresult : last.result with
      | error stop =>
        rw [hresult] at hok
        cases hok
      | ok _ =>
        rw [hresult] at hok
        exact ⟨rfl, Except.ok.inj hok⟩
    obtain ⟨hunlocked, rfl⟩ := hlast
    obtain ⟨firm, hparse, hin⟩ := hreads.reaches hread
    obtain ⟨hheader, hsize⟩ := hunlocks.keeps hunlocked (hkept hmodel)
    obtain ⟨firm', hparse', hends⟩ :=
      Firm.parse_of_sameHeader hheader (Nat.le_of_eq hsize.symm) hparse
    exact ⟨firm', hparse', hin.of_endsWithin hends⟩

theorem load_reaches_oneSection :
    ∃ held firm,
      Firm.parse (load (builtInPlan .new) false (reusing held) :
        Outcome Event BootFailure _ _).state.buffer = .ok firm ∧
      Reaches (builtInPlan .new) (reusing held) .nand firm := by
  have hok := (load_reusing PatchSet.parse_oneSection .new).1
  have hkept := keepsHeader_reusing PatchSet.parse_oneSection .new
  exact ⟨_, load_reaches _ _ _ hok fun _ => hkept⟩

end LoadedImage
end BootStage
