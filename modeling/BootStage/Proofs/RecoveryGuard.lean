import BootStage.CardImage
import BootStage.Device.InMemory
import BootStage.Proofs.ContainerViews
import BootStage.Proofs.EditEffects
import BootStage.Proofs.LowestOccurrence
/-!
# Recovery boots are write-protected

A cold boot with the recovery buttons runs the recovery firmware from the built-in NAND. Its
patch set succeeds just when the ARM9 section holds the check that firmware writes pass, and then
nothing but the four bytes of that check is changed.
-/

namespace BootStage

namespace PatchSet.Recovery

/-- Where the write check stands in ARM9 code. On New models it is the lowest one in the window
in front of the lowest service name. -/
def CheckAt (model : Model) (code : Bytes) (pos : Nat) : Prop :=
  match model with
  | .old => IsLeast {place | OccursAt code #[0x04, 0x1E, 0x1D, 0xDB] place} pos
  | .new => ∃ service, IsLeast {place | OccursAt code (.ofAscii "exe:") place} service ∧
      IsLeast {place | service - 0x100 ≤ place ∧ place + 4 ≤ service ∧
        OccursAt code #[0x00, 0x28, 0x01, 0xDA] place} pos

/-- What the four bytes of the check become. -/
def refusal (model : Model) : Bytes :=
  model.choose #[0x00, 0x24, 0x1D, 0xE0] #[0x00, 0x20, 0xC0, 0x46]

theorem size_refusal (model : Model) : (refusal model).size = 4 := by
  cases model <;> rfl

theorem checkAt_fits {model : Model} {code : Bytes} {pos : Nat} (h : CheckAt model code pos) :
    pos + 4 ≤ code.size := by
  cases model with
  | old =>
    have hocc : OccursAt code #[0x04, 0x1E, 0x1D, 0xDB] pos := h.1
    exact hocc.1
  | new =>
    obtain ⟨service, -, hcheck⟩ := h
    have hocc : OccursAt code #[0x00, 0x28, 0x01, 0xDA] pos := hcheck.1.2.2
    exact hocc.1

/-! ## The New-model check -/

/-- The bytes in front of the service name that are searched for the check. -/
def window (code : Bytes) (service : Nat) : Bytes :=
  code.extract (service - NandGuard.windowSize) service

theorem checkAt_new_iff {code : Bytes} {service : Nat}
    (hservice : code.occurrence? NandGuard.serviceName = some service) (found : Nat) :
    (window code service).occurrence? NandGuard.check = some found ↔
      CheckAt .new code (service - NandGuard.windowSize + found) := by
  have hname : 0 < NandGuard.serviceName.size := by decide
  have hcheck : 0 < NandGuard.check.size := by decide
  have hleast := (Bytes.occurrence?_eq_some_iff hname).1 hservice
  have hin : service ≤ code.size :=
    Nat.le_trans (Nat.le_add_right _ _) (Bytes.occurrence?_fits hservice)
  have hsize : NandGuard.check.size = 4 := rfl
  have hwindow : NandGuard.windowSize = 0x100 := rfl
  rw [window, Bytes.occurrence?_eq_some_iff hcheck,
    Bytes.isLeast_extract_iff (Nat.sub_le _ _) hin, hsize, hwindow]
  constructor
  · intro h
    exact ⟨service, hleast, h⟩
  · rintro ⟨other, hother, h⟩
    obtain rfl := hleast.unique hother
    exact h

theorem block_of_service {code : Bytes} {service : Nat} (hlimit : code.size < positionLimit)
    (hservice : code.occurrence? NandGuard.serviceName = some service) :
    NandGuard.block code =
      match (window code service).occurrence? NandGuard.check with
      | none => ⟨.error (.failed (.missing NandGuard.target)), code, []⟩
      | some found =>
        let pos := service - NandGuard.windowSize + found
        ⟨.ok (), code.overwrite pos NandGuard.refusal, [.nandWritesBlocked pos]⟩ := by
  have hin : service ≤ code.size :=
    Nat.le_trans (Nat.le_add_right _ _) (Bytes.occurrence?_fits hservice)
  have hslice : Edit.slice (service - NandGuard.windowSize) service code =
      ⟨.ok (window code service), code, []⟩ := Edit.slice_of_le (Nat.sub_le _ _) hin
  unfold NandGuard.block
  rw [Run.bind_of_eq_ok (Edit.locate_of_some hservice), Run.bind_of_eq_ok hslice]
  cases hfound : (window code service).occurrence? NandGuard.check with
  | none => exact Run.bind_of_eq_error (m := Run.orFail none _) rfl _
  | some found =>
    have hcheck := (checkAt_new_iff hservice found).1 hfound
    have hwrite : Edit.write NandGuard.target _ NandGuard.refusal code = ⟨.ok (), _, []⟩ :=
      Edit.write_of_fits (checkAt_fits hcheck) hlimit
    rw [Run.bind_of_eq_ok (m := Run.orFail _ _) rfl, Run.bind_of_eq_ok hwrite]
    dsimp only [Run.emit]

theorem block_of_checkAt {code : Bytes} {pos : Nat} (hlimit : code.size < positionLimit)
    (h : CheckAt .new code pos) :
    NandGuard.block code =
      ⟨.ok (), code.overwrite pos NandGuard.refusal, [.nandWritesBlocked pos]⟩ := by
  obtain ⟨service, hleast, hcheck⟩ := id h
  have hservice : code.occurrence? NandGuard.serviceName = some service :=
    (Bytes.occurrence?_eq_some_iff (by decide)).2 hleast
  have hpos : service - NandGuard.windowSize + (pos - (service - NandGuard.windowSize)) = pos :=
    Nat.add_sub_cancel' hcheck.1.1
  have hfound := (checkAt_new_iff hservice (pos - (service - NandGuard.windowSize))).2
    (hpos.symm ▸ h)
  rw [block_of_service hlimit hservice, hfound]
  dsimp only
  rw [hpos]

theorem block_of_no_check {code : Bytes} (hlimit : code.size < positionLimit)
    (h : ∀ pos, ¬CheckAt .new code pos) :
    NandGuard.block code = ⟨.error (.failed (.missing NandGuard.target)), code, []⟩ := by
  cases hservice : code.occurrence? NandGuard.serviceName with
  | none =>
    unfold NandGuard.block
    exact Run.bind_of_eq_error (Edit.locate_of_none hservice) _
  | some service =>
    rw [block_of_service hlimit hservice]
    cases hfound : (window code service).occurrence? NandGuard.check with
    | none => rfl
    | some found => exact absurd ((checkAt_new_iff hservice found).1 hfound) (h _)

/-! ## The check of either model -/

theorem blockWrites_of_checkAt {model : Model} {code : Bytes} {pos : Nat}
    (hlimit : code.size < positionLimit) (h : CheckAt model code pos) :
    ∃ events, blockWrites model code = ⟨.ok (), code.overwrite pos (refusal model), events⟩ := by
  cases model with
  | new => exact ⟨_, block_of_checkAt hlimit h⟩
  | old =>
    have hfound : code.occurrence? oldGuardPatch.pattern = some pos :=
      (Bytes.occurrence?_eq_some_iff (by decide)).2 h
    have hstart : Bytes.writeStart code.size pos oldGuardPatch.offset
        oldGuardPatch.replacement.size = .ok pos :=
      Bytes.writeStart_of_fits (Int.add_zero _).symm (checkAt_fits h) hlimit
    refine ⟨[.patternPatched oldGuardPatch.name 1], ?_⟩
    change (oldGuardPatch.require >>= fun _ => pure ()) code = _
    have hrefusal : oldGuardPatch.replacement = refusal .old := rfl
    rw [Run.bind_apply, PatternPatch.require_once rfl hfound hstart, hrefusal]
    dsimp only [Run.andThen]
    rw [Run.pure_apply, List.append_nil]

theorem blockWrites_of_no_check {model : Model} {code : Bytes}
    (hlimit : code.size < positionLimit) (h : ∀ pos, ¬CheckAt model code pos) :
    ∃ err events, blockWrites model code = ⟨.error (.failed err), code, events⟩ := by
  cases model with
  | new => exact ⟨_, _, block_of_no_check hlimit h⟩
  | old =>
    have hpattern : 0 < oldGuardPatch.pattern.size := by decide
    have hnone : code.occurrence? oldGuardPatch.pattern = none := by
      cases hfound : code.occurrence? oldGuardPatch.pattern with
      | none => rfl
      | some pos =>
        exact absurd ((Bytes.occurrence?_eq_some_iff hpattern).1 hfound) (h pos)
    refine ⟨.missing oldGuardPatch.name, [.patternPatched oldGuardPatch.name 0], ?_⟩
    unfold blockWrites
    exact Run.bind_of_eq_error (PatternPatch.require_of_none hnone) _

/-! ## The patch set -/

theorem patchArm9_eq {plan : Plan} {kit : PatchKit} (hguard : plan.guard ≠ .off)
    (hlocation : kit.location = none) (address : UInt32) :
    patchArm9 plan kit address = blockWrites plan.model := by
  unfold patchArm9 guardWrites
  rw [hlocation]
  exact if_neg hguard

section

variable {plan : Plan} {kit : PatchKit} {firm : Firm}

theorem apply_eq (htitle : plan.title = .safe) (hguard : plan.guard ≠ .off)
    (hlocation : kit.location = none) :
    PatchSet.apply plan kit firm =
      (FirmEdit.onSection arm9Slot "ARM9 section" (fun _ => blockWrites plan.model) >>= fun _ =>
        Run.emit .safePatched >>= fun _ => pure none : FirmEdit (Option Bytes)) firm := by
  have hpatch : PatchSet.apply plan kit = (fun _ => none) <$> Recovery.patch plan kit := by
    unfold PatchSet.apply
    rw [htitle]
  have hedit : (fun s : Section => patchArm9 plan kit s.address) =
      fun _ => blockWrites plan.model :=
    funext fun s => patchArm9_eq hguard hlocation s.address
  rw [hpatch, ← bind_pure_comp, Recovery.patch, hedit, bind_assoc]

theorem apply_of_checkAt (htitle : plan.title = .safe) (hguard : plan.guard ≠ .off)
    (hlocation : kit.location = none) (hfits : firm.SectionsFit) {s : Section} {pos : Nat}
    (hs : firm.section? arm9Slot = some s) (hcheck : CheckAt plan.model (firm.payload s) pos) :
    (PatchSet.apply plan kit firm).result = .ok none ∧
      (PatchSet.apply plan kit firm).state =
        { firm with bytes := firm.bytes.overwrite (s.start + pos) (refusal plan.model) } := by
  have hstop := hfits arm9Slot s hs
  obtain ⟨events, hblock⟩ := blockWrites_of_checkAt (firm.size_payload_lt s) hcheck
  have hsection := FirmEdit.onSection_of_some hs hstop "ARM9 section" fun _ =>
    blockWrites plan.model
  have hin : pos + (refusal plan.model).size ≤ s.stop - s.start := by
    have hpayload := checkAt_fits hcheck
    unfold Firm.payload at hpayload
    rw [Array.size_extract] at hpayload
    rw [size_refusal]
    omega
  have hbytes : firm.bytes.overwrite s.start
      ((firm.payload s).overwrite pos (refusal plan.model)) =
        firm.bytes.overwrite (s.start + pos) (refusal plan.model) :=
    Bytes.overwrite_extract_overwrite _ _ hstop hin
  rw [hblock] at hsection
  dsimp only at hsection
  rw [hbytes] at hsection
  rw [apply_eq htitle hguard hlocation, Run.bind_apply, hsection]
  exact ⟨rfl, rfl⟩

theorem apply_of_no_check (htitle : plan.title = .safe) (hguard : plan.guard ≠ .off)
    (hlocation : kit.location = none) (hfits : firm.SectionsFit)
    (hnone : ∀ s pos, firm.section? arm9Slot = some s → ¬CheckAt plan.model (firm.payload s) pos) :
    (∃ err, (PatchSet.apply plan kit firm).result = .error (.failed err)) ∧
      (PatchSet.apply plan kit firm).state = firm := by
  rw [apply_eq htitle hguard hlocation]
  cases hs : firm.section? arm9Slot with
  | none =>
    rw [Run.bind_of_eq_error (FirmEdit.onSection_of_none hs _ _)]
    exact ⟨⟨_, rfl⟩, rfl⟩
  | some s =>
    have hstop := hfits arm9Slot s hs
    obtain ⟨err, events, hblock⟩ := blockWrites_of_no_check (firm.size_payload_lt s)
      fun pos => hnone s pos hs
    have hsection := FirmEdit.onSection_of_some hs hstop "ARM9 section" fun _ =>
      blockWrites plan.model
    have hsame : firm.bytes.overwrite s.start (firm.payload s) = firm.bytes :=
      Bytes.overwrite_extract _ _ _
    rw [hblock] at hsection
    dsimp only at hsection
    rw [hsame] at hsection
    rw [Run.bind_of_eq_error hsection]
    exact ⟨⟨err, rfl⟩, rfl⟩

end

/-! ## Recovery boots -/

/-- The patch set succeeds just when section 2 holds the write check, and then replaces its four
bytes only; when it fails, the container is as it was. -/
structure Guards (model : Model) (firm : Firm)
    (out : Outcome Notice PatchFailure Firm (Option Bytes)) : Prop where
  succeeds : (∃ modules, out.result = .ok modules) ↔
    ∃ s pos, firm.section? 2 = some s ∧ CheckAt model (firm.payload s) pos
  replaced : ∀ modules, out.result = .ok modules →
    modules = none ∧
      ∃ s pos, firm.section? 2 = some s ∧ CheckAt model (firm.payload s) pos ∧
        out.state = { firm with bytes := firm.bytes.overwrite (s.start + pos) (refusal model) }
  kept : ∀ stop, out.result = .error stop → (∃ err, stop = .failed err) ∧ out.state = firm

theorem guards_apply {plan : Plan} {kit : PatchKit} {firm : Firm} (htitle : plan.title = .safe)
    (hguard : plan.guard ≠ .off) (hlocation : kit.location = none) (hfits : firm.SectionsFit) :
    Guards plan.model firm (PatchSet.apply plan kit firm) := by
  by_cases hcheck : ∃ s pos, firm.section? 2 = some s ∧ CheckAt plan.model (firm.payload s) pos
  · obtain ⟨s, pos, hs, hpos⟩ := id hcheck
    obtain ⟨hok, hstate⟩ := apply_of_checkAt htitle hguard hlocation hfits hs hpos
    constructor
    case succeeds => exact ⟨fun _ => hcheck, fun _ => ⟨none, hok⟩⟩
    case replaced =>
      intro modules hmodules
      rw [hok] at hmodules
      exact ⟨(Except.ok.inj hmodules).symm, s, pos, hs, hpos, hstate⟩
    case kept =>
      intro stop hstop
      rw [hok] at hstop
      cases hstop
  · have hnone : ∀ s pos, firm.section? arm9Slot = some s →
        ¬CheckAt plan.model (firm.payload s) pos :=
      fun s pos hs hpos => hcheck ⟨s, pos, hs, hpos⟩
    obtain ⟨⟨err, herr⟩, hstate⟩ := apply_of_no_check htitle hguard hlocation hfits hnone
    constructor
    case succeeds =>
      refine ⟨?_, fun h => absurd h hcheck⟩
      rintro ⟨modules, hmodules⟩
      rw [herr] at hmodules
      cases hmodules
    case replaced =>
      intro modules hmodules
      rw [herr] at hmodules
      cases hmodules
    case kept =>
      intro stop hstop
      rw [herr] at hstop
      obtain rfl := Except.error.inj hstop
      exact ⟨⟨err, rfl⟩, hstate⟩

/-- A cold boot with exactly the recovery buttons runs the recovery firmware of the built-in NAND
with forced protection, looks at no sector of the card, and is patched only by blocking the
firmware writes. -/
theorem recovery_boot_guarded {δ : Type} [Card δ] (inputs : Inputs)
    (hcold : inputs.launchFlag = 0) (hbuttons : inputs.buttons = .recovery) :
    ∃ plan, Plan.ofInputs inputs = .ok plan ∧
      plan.kind = .cold ∧ plan.title = .safe ∧ plan.guard = .forced ∧ plan.nand = .sys ∧
      plan.source = .sys ∧
      (∀ card : δ, (CardImage.resolve plan : Run Event BootFailure δ _) card =
        ⟨.ok (plan, none), card, []⟩) ∧
      ∀ (kit : PatchKit) (bytes : Bytes) (firm : Firm), kit.location = none →
        Firm.parse bytes = .ok firm →
          Guards inputs.model firm (PatchSet.apply plan kit firm) := by
  have hplan : Plan.ofInputs inputs = .ok (.starting inputs) := if_pos hcold
  have htitle : (Plan.starting inputs).title = .safe := if_pos hbuttons
  have hguard : (Plan.starting inputs).guard = .forced := if_pos hbuttons
  have hnands : (Plan.starting inputs).nand = .sys ∧ (Plan.starting inputs).source = .sys := by
    simp only [Plan.starting, hbuttons, if_true, and_self]
  refine ⟨_, hplan, rfl, htitle, hguard, hnands.1, hnands.2, fun card => ?_, ?_⟩
  · unfold CardImage.resolve
    rw [hnands.1, hnands.2]
    rfl
  · intro kit bytes firm hlocation hparse
    have hforced : (Plan.starting inputs).guard ≠ .off := by
      rw [hguard]
      nofun
    exact guards_apply htitle hforced hlocation (Firm.sectionsFit_of_parse hparse)

/-- A container with the Old-model write check in section 2. -/
def guardedSection : Bytes :=
  oneSection.overwrite 0x200 #[0x04, 0x1E, 0x1D, 0xDB]

def guarded : Firm :=
  ⟨ContainerHeader.read guardedSection, guardedSection⟩

theorem parse_guardedSection : Firm.parse guardedSection = .ok guarded :=
  Firm.parse_of_sound (by decide +kernel) (by decide +kernel) (by decide +kernel)

theorem checkAt_guarded :
    ∃ s pos, guarded.section? 2 = some s ∧ CheckAt .old (guarded.payload s) pos := by
  have hfound : (guarded.section? 2).any fun s =>
      OccursAt (guarded.payload s) #[0x04, 0x1E, 0x1D, 0xDB] 0 := by decide +kernel
  obtain ⟨s, hs, hcheck⟩ := (Option.any_eq_true _ _).1 hfound
  exact ⟨s, 0, hs, of_decide_eq_true hcheck, fun place _ => Nat.zero_le place⟩

theorem recovery_boot_guarded_old :
    ∃ plan, Plan.ofInputs ⟨0, 0, .recovery, .old, false, .empty⟩ = .ok plan ∧
      ∃ modules, (PatchSet.apply plan emptyKit guarded).result = .ok modules := by
  obtain ⟨plan, hplan, -, -, -, -, -, -, hguards⟩ :=
    recovery_boot_guarded (δ := SectorImage) ⟨0, 0, .recovery, .old, false, .empty⟩ rfl rfl
  have hfirm : Guards .old guarded (PatchSet.apply plan emptyKit guarded) :=
    hguards emptyKit guardedSection guarded rfl parse_guardedSection
  exact ⟨plan, hplan, hfirm.succeeds.2 checkAt_guarded⟩

end PatchSet.Recovery
end BootStage
