import BootStage.Boot.Sequence
import BootStage.Proofs.ContainerViews
import BootStage.Proofs.EditEffects
/-!
# Payload writes and the header

A container holds its header twice while it is patched: captured in the view, and in its bytes.
The two agree after any run of payload writes, as long as no payload that is written lies over
the header. Nothing keeps a payload from lying there, and one that does can be written so that the
bytes are parsed to another header, or to none.
-/

namespace BootStage

namespace ContainerHeader

/-- Position `i` is one of those a header is read from: all but the reserved bytes. -/
def IsField (i : Nat) : Prop :=
  i < 0x10 ∨ 0x40 ≤ i ∧ i < size

variable {b b' : Bytes}

theorem read_congr (h : ∀ i, IsField i → i < 0xC ∨ 0x10 ≤ i → b'[i]? = b[i]?) :
    read b' = { read b with arm9Entry := b'.word arm9EntryPos } := by
  have hword : ∀ pos, pos + 4 ≤ 0xC ∨ 0x40 ≤ pos ∧ pos + 4 ≤ size → b'.word pos = b.word pos :=
    fun pos hpos => Bytes.word_congr fun i _ _ => h i (by unfold IsField; omega) (by omega)
  have hwindow : ∀ pos len, 0x40 ≤ pos → pos + len ≤ size → b'.window pos len = b.window pos len :=
    fun pos len _ _ => Bytes.window_congr fun i _ _ => h i (by unfold IsField; omega) (by omega)
  have hsize : size = 0x200 := rfl
  have hslot : ∀ slot : Fin 4,
      readSlot b' (0x40 + 0x30 * slot.val) = readSlot b (0x40 + 0x30 * slot.val) := by
    intro slot
    unfold readSlot
    rw [hword _ (by omega), hword _ (by omega), hword _ (by omega), hword _ (by omega),
      hwindow _ _ (by omega) (by omega)]
  unfold read
  rw [hword 4 (by omega), hword 8 (by omega), hwindow 0x100 0x100 (by omega) (by omega),
    funext hslot]

theorem read_append (h : size ≤ b.size) (rest : Bytes) : read (b ++ rest) = read b := by
  have hsame : ∀ i, IsField i → (b ++ rest)[i]? = b[i]? := by
    intro i hi
    unfold IsField at hi
    have hsize : size = 0x200 := rfl
    exact Array.getElem?_append_left (by omega)
  have hentry : (b ++ rest).word arm9EntryPos = (read b).arm9Entry := by
    refine Bytes.word_congr fun i hge hlt => hsame i ?_
    unfold arm9EntryPos at hge hlt
    unfold IsField
    omega
  rw [read_congr fun i hi _ => hsame i hi, hentry]

/-- The magic and the header tell every byte they are read from. -/
theorem byte_of_read_eq (hmagic : b'.window 0 4 = b.window 0 4) (h : read b' = read b) {i : Nat}
    (hi : IsField i) : b'.byte i = b.byte i := by
  simp only [read, mk.injEq] at h
  obtain ⟨hpriority, harm11, harm9, hsections, hsignature⟩ := h
  have hsize : size = 0x200 := rfl
  have hpos : arm9EntryPos = 0xC := rfl
  unfold IsField at hi
  obtain hin | hin | hin | hin | hin | hin : i < 4 ∨ (4 ≤ i ∧ i < 8) ∨ (8 ≤ i ∧ i < 0xC) ∨
      (0xC ≤ i ∧ i < 0x10) ∨ (0x40 ≤ i ∧ i < 0x100) ∨ (0x100 ≤ i ∧ i < 0x200) := by omega
  · exact Bytes.byte_of_window_eq hmagic (by omega) (by omega)
  · exact Bytes.byte_of_word_eq hpriority (by omega) (by omega)
  · exact Bytes.byte_of_word_eq harm11 (by omega) (by omega)
  · exact Bytes.byte_of_word_eq harm9 (by omega) (by omega)
  · -- A byte of a slot: one of four words, or of the hash behind them.
    obtain ⟨slot, hslot, hstart, hstop⟩ : ∃ slot < 4, 0x40 + 0x30 * slot ≤ i ∧
        i < 0x40 + 0x30 * slot + 0x30 := ⟨(i - 0x40) / 0x30, by omega, by omega, by omega⟩
    have hentry := congrArg (fun slots : Vector SectionHeader 4 => slots[slot]) hsections
    simp only [Vector.getElem_ofFn, readSlot, SectionHeader.mk.injEq] at hentry
    obtain ⟨hoffset, haddress, hlength, hmethod, hhash⟩ := hentry
    generalize 0x40 + 0x30 * slot = pos at *
    obtain hin | hin | hin | hin | hin : i < pos + 4 ∨ (pos + 4 ≤ i ∧ i < pos + 8) ∨
        (pos + 8 ≤ i ∧ i < pos + 0xC) ∨ (pos + 0xC ≤ i ∧ i < pos + 0x10) ∨
        (pos + 0x10 ≤ i ∧ i < pos + 0x30) := by omega
    · exact Bytes.byte_of_word_eq hoffset hstart hin
    · exact Bytes.byte_of_word_eq haddress hin.1 (by omega)
    · exact Bytes.byte_of_word_eq hlength hin.1 (by omega)
    · exact Bytes.byte_of_word_eq hmethod hin.1 (by omega)
    · exact Bytes.byte_of_window_eq hhash hin.1 (by omega)
  · exact Bytes.byte_of_window_eq hsignature hin.1 (by omega)

end ContainerHeader

def Section.OffHeader (s : Section) : Prop :=
  ∀ i, s.start ≤ i → i < s.stop → ¬ContainerHeader.IsField i

namespace Firm

variable {firm : Firm} {bytes : Bytes}

def PayloadsOffHeader (firm : Firm) : Prop :=
  ∀ slot s, firm.section? slot = some s → s.OffHeader

/-- The step moves the entrypoint or writes a payload, and reaches no other bytes. -/
def Step.IsPayload : Step → Prop
  | .setArm9Entry _ | .writeSection _ _ => True
  | .writeBytes _ => False

/-- The steps write payloads only, and none that lies over the header. -/
structure WriteOffHeader (firm : Firm) (steps : List Step) : Prop where
  payload : ∀ step ∈ steps, step.IsPayload
  offHeader : ∀ slot write, .writeSection slot write ∈ steps →
    ∀ s, firm.section? slot = some s → s.OffHeader

/-! ## Parsing again -/

theorem parse_of_agree {bytes' : Bytes} (h : parse bytes = .ok firm)
    (hsize : bytes'.size = bytes.size)
    (hagree : ∀ i, ContainerHeader.IsField i → i < 0xC ∨ 0x10 ≤ i → bytes'[i]? = bytes[i]?) :
    parse bytes' = .ok ⟨{ firm.header with
      arm9Entry := bytes'.word ContainerHeader.arm9EntryPos }, bytes'⟩ := by
  obtain ⟨hlong, hmagic, rfl, hfits⟩ := parse_eq_ok h
  have hread := ContainerHeader.read_congr hagree
  have hsame : bytes'.window 0 4 = bytes.window 0 4 :=
    Bytes.window_congr fun i _ _ =>
      hagree i (by unfold ContainerHeader.IsField; omega) (by omega)
  rw [parse_of_sound (hsize ▸ hlong) (hsame.trans hmagic), hread]
  rw [hread, hsize]
  exact hfits

theorem parse_of_sameFields {bytes' : Bytes} (h : parse bytes = .ok firm)
    (hsize : bytes'.size = bytes.size)
    (hsame : ∀ i, ContainerHeader.IsField i → bytes'[i]? = bytes[i]?) :
    parse bytes' = .ok ⟨firm.header, bytes'⟩ := by
  have hentry : bytes'.word ContainerHeader.arm9EntryPos = firm.header.arm9Entry := by
    obtain ⟨-, -, rfl, -⟩ := parse_eq_ok h
    refine Bytes.word_congr fun i hge hlt => hsame i ?_
    unfold ContainerHeader.arm9EntryPos at hge hlt
    unfold ContainerHeader.IsField
    omega
  rw [parse_of_agree h hsize fun i hi _ => hsame i hi, hentry]

theorem parse_withArm9Entry (h : parse firm.bytes = .ok firm) (entry : UInt32) :
    parse (firm.withArm9Entry entry).bytes = .ok (firm.withArm9Entry entry) := by
  simp only [withArm9Entry]
  have hlong : 0x200 ≤ firm.bytes.size := (parse_eq_ok h).1
  have hpos : ContainerHeader.arm9EntryPos = 0xC := rfl
  have hagree : ∀ i, ContainerHeader.IsField i → i < 0xC ∨ 0x10 ≤ i →
      (firm.bytes.overwrite ContainerHeader.arm9EntryPos (.ofWord entry))[i]? =
        firm.bytes[i]? := by
    intro i _ hi
    rw [Bytes.getElem?_overwrite, if_neg (by rw [Bytes.size_ofWord]; omega)]
  have hparse := parse_of_agree h (Bytes.size_overwrite _ _ _) hagree
  rw [Bytes.word_overwrite _ _ _ (by omega)] at hparse
  exact hparse

theorem parse_overwrite {s : Section} (h : parse firm.bytes = .ok firm) (hoff : s.OffHeader)
    {data : Bytes} (hdata : data.size ≤ s.size.toNat) :
    parse (firm.bytes.overwrite s.start data) =
      .ok ⟨firm.header, firm.bytes.overwrite s.start data⟩ := by
  refine parse_of_sameFields h (Bytes.size_overwrite _ _ _) fun i hi => ?_
  have hout : ¬(s.start ≤ i ∧ i < s.stop) := fun hin => hoff i hin.1 hin.2 hi
  unfold Section.stop at hout
  rw [Bytes.getElem?_overwrite, if_neg (by omega)]

/-- One step that writes no payload over the header leaves bytes that are parsed to the view. -/
theorem parse_apply (h : parse firm.bytes = .ok firm) {step : Step} (hpayload : step.IsPayload)
    (hoff : ∀ slot write, step = .writeSection slot write →
      ∀ s, firm.section? slot = some s → s.OffHeader) :
    parse (step.apply firm).bytes = .ok (step.apply firm) := by
  cases step with
  | setArm9Entry entry => exact parse_withArm9Entry h entry
  | writeBytes write => exact hpayload.elim
  | writeSection slot write =>
    show parse (FirmEdit.onSection slot "" (fun _ => write.edit) firm).state.bytes = .ok
      (FirmEdit.onSection slot "" (fun _ => write.edit) firm).state
    cases hs : firm.section? slot with
    | none =>
      rw [FirmEdit.onSection_of_none hs]
      exact h
    | some s =>
      have hfits := sectionsFit_of_parse h slot s hs
      rw [FirmEdit.onSection_of_some hs hfits]
      apply parse_overwrite h (hoff slot write rfl s hs)
      simp only [write.size_state, size_payload hfits, Nat.le_refl]

/-- Along a run the invariant is that the bytes are parsed to the view itself. -/
theorem parse_after (h : parse firm.bytes = .ok firm) {steps : List Step}
    (hsteps : firm.WriteOffHeader steps) :
    parse (firm.after steps).bytes = .ok (firm.after steps) := by
  induction steps generalizing firm with
  | nil => exact h
  | cons step rest ih =>
    have hstep : parse (step.apply firm).bytes = .ok (step.apply firm) := by
      refine parse_apply h (hsteps.payload step List.mem_cons_self) ?_
      rintro slot write rfl
      exact hsteps.offHeader slot write List.mem_cons_self
    have hlayout := (sameLayout_apply (sectionsFit_of_parse h) step).1
    refine ih hstep ⟨fun s hs => hsteps.payload s (List.mem_cons_of_mem step hs), ?_⟩
    intro slot write hmem s hs
    rw [hlayout.section?] at hs
    exact hsteps.offHeader slot write (List.mem_cons_of_mem step hmem) s hs

/-! ## A payload over the header -/

theorem parse_ne_of_byte_ne {bytes' : Bytes} (h : parse bytes = .ok firm) {i : Nat}
    (hi : ContainerHeader.IsField i) (hne : bytes'.byte i ≠ bytes.byte i) :
    parse bytes' ≠ .ok ⟨firm.header, bytes'⟩ := by
  intro hagain
  obtain ⟨-, hmagic, rfl, -⟩ := parse_eq_ok h
  obtain ⟨-, hmagic', hview, -⟩ := parse_eq_ok hagain
  have hheader : ContainerHeader.read bytes' = ContainerHeader.read bytes :=
    (congrArg Firm.header hview).symm
  exact hne (ContainerHeader.byte_of_read_eq (hmagic'.trans hmagic.symm) hheader hi)

/-- Of a payload over the header a single byte can be written that keeps the bytes from being
parsed to the view. -/
theorem exists_write_parse_ne (h : parse firm.bytes = .ok firm) {slot : Nat} {s : Section}
    (hs : firm.section? slot = some s) {i : Nat} (hstart : s.start ≤ i) (hstop : i < s.stop)
    (hi : ContainerHeader.IsField i) :
    ∃ write, parse (firm.after [.writeSection slot write]).bytes ≠
      .ok (firm.after [.writeSection slot write]) := by
  have hfits := sectionsFit_of_parse h slot s hs
  let other : Bytes := #[firm.bytes.byte i + 1]
  have hpayload : (firm.payload s).size = s.stop - s.start := by
    rw [size_payload hfits, Section.stop]
    omega
  have hother : other.size = 1 := rfl
  -- Writing the byte through the payload writes it in the container.
  have hbytes : firm.after [.writeSection slot (.laying (i - s.start) other)] =
      { firm with bytes := firm.bytes.overwrite i other } := by
    show (FirmEdit.onSection slot "" (fun _ => Edit.write "" (i - s.start) other) firm).state = _
    rw [FirmEdit.onSection_of_some hs hfits,
      Edit.write_of_fits (by omega) (firm.size_payload_lt s)]
    dsimp only
    rw [payload, Bytes.overwrite_extract_overwrite _ _ hfits (by omega),
      Nat.add_sub_cancel' hstart]
  refine ⟨.laying (i - s.start) other, ?_⟩
  rw [hbytes]
  apply parse_ne_of_byte_ne h hi
  rw [Bytes.byte, Bytes.getElem?_overwrite, if_pos (by omega), Nat.sub_self]
  show firm.bytes.byte i + 1 ≠ firm.bytes.byte i
  simp

end Firm

/-! ## The container of a boot -/

namespace PatchSet

/-- The tables of the backwards-compatibility firmwares lie far behind the header. -/
theorem Compatibility.behind_header {title : Title} {showsGbaScreen : Bool} {table : Table}
    (h : table? title showsGbaScreen = some table) :
    ∀ patch ∈ table.patches, ∀ model, ContainerHeader.size ≤ patch.positionOn model := by
  have hds : ∀ patch ∈ dsPatches, ∀ model, ContainerHeader.size ≤ patch.positionOn model := by
    intro patch hpatch model
    cases model <;> revert patch <;> decide
  have hgba : ∀ patch ∈ [gbaSignaturePatch, gbaScreenPatch], ∀ model,
      ContainerHeader.size ≤ patch.positionOn model := by
    intro patch hpatch model
    cases model <;> revert patch <;> decide
  cases title with
  | native | safe => cases h
  | twl =>
    obtain rfl := Option.some.inj h
    exact hds
  | agb =>
    obtain rfl := Option.some.inj h
    cases showsGbaScreen with
    | true => exact hgba
    | false => exact fun patch hpatch => hgba patch (by simp [List.mem_singleton.1 hpatch])

variable {firm : Firm}

theorem not_writable_of_isField (hoff : firm.PayloadsOffHeader) (plan : Plan) (kit : PatchKit)
    {i : Nat} (hi : ContainerHeader.IsField i) : ¬Writable plan kit firm i := by
  have hsection : ∀ slot, ¬firm.InSection slot i := by
    rintro slot ⟨s, hs, hstart, hstop⟩
    exact hoff slot s hs i hstart hstop hi
  have htable : ¬InTable plan i := by
    rintro ⟨table, htable, patch, hpatch, hcovers, -⟩
    have hbehind := Compatibility.behind_header htable patch hpatch plan.model
    unfold ContainerHeader.IsField at hi
    have hsize : ContainerHeader.size = 0x200 := rfl
    omega
  unfold Writable
  cases plan.title <;> simp [hsection, htable]

/-- Whether it succeeds or fails, a patch set leaves bytes that are parsed to the header it
started with, where no payload lies over it. -/
theorem parse_apply (h : Firm.parse firm.bytes = .ok firm) (hoff : firm.PayloadsOffHeader)
    (plan : Plan) (kit : PatchKit) :
    Firm.parse (apply plan kit firm).state.bytes =
      .ok ⟨firm.header, (apply plan kit firm).state.bytes⟩ := by
  have hchanged := (safe_apply plan kit (Firm.sectionsFit_of_parse h) firm (.refl _ firm)).1
  exact Firm.parse_of_sameFields h hchanged.bytes.size fun i hi =>
    hchanged.bytes.kept i (not_writable_of_isField hoff plan kit hi)

end PatchSet

theorem World.onIntake_parse {σ κ δ : Type} {w : World σ κ δ} {firm : Firm}
    (h : Firm.parse w.intake.buffer = .ok firm) :
    (World.onIntake Intake.parse : Run Event BootFailure (World σ κ δ) Firm) w =
      ⟨.ok firm, w, []⟩ := by
  have hread : (Intake.parse : Run Event BootFailure (Intake σ κ) Firm) w.intake =
      ⟨.ok firm, w.intake, []⟩ := by
    unfold Intake.parse
    rw [Run.bind_of_eq_ok (m := get) rfl, h]
    rfl
  unfold World.onIntake Run.onPart
  rw [hread]

/-- A boot that patched its firmware finds the header it had validated in its buffer. -/
theorem Boot.parse_patchLoaded {σ κ δ : Type} {w : World σ κ δ} {firm : Firm}
    (h : Firm.parse w.intake.buffer = .ok firm) (hoff : firm.PayloadsOffHeader) (plan : Plan)
    (kit : PatchKit) :
    let patched := (patchLoaded plan kit w : Outcome Event BootFailure (World σ κ δ) _).state
    Firm.parse patched.intake.buffer = .ok ⟨firm.header, patched.intake.buffer⟩ := by
  have hstate : (patchLoaded plan kit w : Outcome Event BootFailure _ _).state =
      (World.onFirm firm (PatchSet.apply plan kit) w : Outcome Event BootFailure _ _).state := by
    unfold patchLoaded
    rw [Run.bind_of_eq_ok (World.onIntake_parse h)]
    cases hresult : (World.onFirm firm (PatchSet.apply plan kit) w :
        Outcome Event BootFailure _ _).result with
    | error stop => rw [Run.bind_of_error hresult]
    | ok modules =>
      rw [Run.bind_of_ok hresult]
      rfl
  obtain ⟨-, -, rfl, -⟩ := Firm.parse_eq_ok h
  dsimp only
  rw [hstate]
  exact PatchSet.parse_apply h hoff plan kit

namespace Firm

/-- A container whose first payload is its own magic. -/
def selfHeaded : Bytes :=
  let blank : Bytes := Array.replicate 0x200 0
  (blank.overwrite 0 ContainerHeader.magic).overwrite 0x48 (.ofWord 4)

theorem parse_selfHeaded :
    parse selfHeaded = .ok ⟨ContainerHeader.read selfHeaded, selfHeaded⟩ :=
  parse_of_sound (by decide +kernel) (by decide +kernel) (by decide +kernel)

/-- Wiping that payload is a payload write, and leaves bytes that are no container. -/
theorem parse_selfHeaded_wiped :
    ∃ firm, parse selfHeaded = .ok firm ∧
      (∀ step ∈ [Step.writeSection 0 (.laying 0 #[0, 0, 0, 0])], step.IsPayload) ∧
      parse (firm.after [.writeSection 0 (.laying 0 #[0, 0, 0, 0])]).bytes =
        .error (.wrongMagic #[0, 0, 0, 0]) := by
  refine ⟨_, parse_selfHeaded, by simp [Step.IsPayload], ?_⟩
  generalize hafter : after ⟨ContainerHeader.read selfHeaded, selfHeaded⟩
    [.writeSection 0 (.laying 0 #[0, 0, 0, 0])] = wiped
  have hsize : 0x200 ≤ wiped.bytes.size := by
    rw [← hafter]
    decide +kernel
  have hmagic : wiped.bytes.window 0 4 = #[0, 0, 0, 0] := by
    rw [← hafter]
    decide +kernel
  rw [← hmagic]
  exact (parse_eq_error_iff _ _).2 (.wrongMagic hsize (by rw [hmagic]; decide +kernel))

/-- After any run of payload writes off the header the bytes are parsed to the view itself. For
a container this holds of every run of payload writes just when no payload lies over its header;
and then a boot that patched it launches the header that was validated. -/
theorem parse_after_payload_writes {bytes : Bytes} {firm : Firm} (h : parse bytes = .ok firm) :
    (∀ steps, firm.WriteOffHeader steps →
      parse (firm.after steps).bytes = .ok (firm.after steps)) ∧
    ((∀ steps : List Step, (∀ step ∈ steps, step.IsPayload) →
      parse (firm.after steps).bytes = .ok (firm.after steps)) ↔ firm.PayloadsOffHeader) ∧
    (firm.PayloadsOffHeader →
      ∀ {σ κ δ : Type} (w : World σ κ δ) (plan : Plan) (kit : PatchKit), w.intake.buffer = bytes →
        let patched := (Boot.patchLoaded plan kit w : Outcome _ _ (World σ κ δ) _).state
        parse patched.intake.buffer = .ok ⟨firm.header, patched.intake.buffer⟩) := by
  have hview : parse firm.bytes = .ok firm := by
    obtain ⟨-, -, rfl, -⟩ := parse_eq_ok h
    exact h
  refine ⟨fun steps hsteps => parse_after hview hsteps, ⟨?_, ?_⟩, ?_⟩
  · intro hall slot s hs i hstart hstop hi
    obtain ⟨write, hne⟩ := exists_write_parse_ne hview hs hstart hstop hi
    exact hne (hall _ (by simp [Step.IsPayload]))
  · intro hoff steps hsteps
    exact parse_after hview ⟨hsteps, fun slot _ _ s hs => hoff slot s hs⟩
  · rintro hoff σ κ δ w plan kit rfl
    exact Boot.parse_patchLoaded h hoff plan kit

theorem payloadsOffHeader_of_behind {firm : Firm}
    (h : ∀ s ∈ firm.header.sectionList, ContainerHeader.size ≤ s.start) :
    firm.PayloadsOffHeader := by
  intro slot s hs i hstart _ hi
  have hbehind := h s (ContainerHeader.mem_sectionList.2
    ((ContainerHeader.index_of_section? hs).symm ▸ hs))
  unfold ContainerHeader.IsField ContainerHeader.size at *
  omega

theorem parse_after_payload_writes_oneSection :
    ∃ firm, parse PatchSet.oneSection = .ok firm ∧ firm.PayloadsOffHeader ∧
      parse (firm.after [.writeSection 2 (.laying 1 #[1, 2, 3]), .setArm9Entry 0x0801B01C]).bytes =
        .ok (firm.after [.writeSection 2 (.laying 1 #[1, 2, 3]), .setArm9Entry 0x0801B01C]) := by
  have hbehind : ∀ s ∈ (ContainerHeader.read PatchSet.oneSection).sectionList,
      ContainerHeader.size ≤ s.start := by decide +kernel
  have hoff : PayloadsOffHeader ⟨ContainerHeader.read PatchSet.oneSection, PatchSet.oneSection⟩ :=
    payloadsOffHeader_of_behind hbehind
  refine ⟨_, PatchSet.parse_oneSection, hoff, ?_⟩
  exact (parse_after_payload_writes PatchSet.parse_oneSection).2.1.2 hoff _
    (by simp [Step.IsPayload])

end Firm
end BootStage
