import BootStage.CardImage
import BootStage.Config.Store
import BootStage.Proofs.Calls
/-!
# Image slots

The NANDs of a plan are recorded in fields of three bits. The slots that a decision can name fit
them, and a search for images comes to the slot asked for or to the first, so recording a plan is
safe.
-/

namespace BootStage

/-- The NAND has a code of three bits that stands for no other. -/
def Nand.Fits : Nand → Prop
  | .sys => True
  | .emu slot => 1 ≤ slot ∧ slot < 8

theorem Nand.Fits.codeOf_lt {nand : Nand} (h : nand.Fits) : Config.codeOf nand < 8 := by
  cases nand with
  | sys => decide
  | emu slot => exact h.2

theorem Nand.Fits.nandOf_codeOf {nand : Nand} (h : nand.Fits) :
    Config.nandOf (Config.codeOf nand) = nand := by
  cases nand with
  | sys => rfl
  | emu slot =>
    cases slot with
    | zero => exact absurd h.1 (by decide)
    | succ n => rfl

def Plan.Recordable (plan : Plan) : Prop :=
  plan.nand.Fits ∧ plan.source.Fits

/-! ## Decisions -/

namespace Config

theorem get_lt (config : Config) (field : Field) : config.get field < 1 <<< field.width := by
  unfold get
  rw [Nat.one_shiftLeft]
  exact Nat.mod_lt _ (Nat.two_pow_pos _)

theorem fits_nandOf {code : Nat} (h : code < 8) : (nandOf code).Fits := by
  cases code with
  | zero => exact True.intro
  | succ slot => exact ⟨Nat.succ_pos slot, h⟩

end Config

namespace Plan

/-- Four slots have a direction, and the configuration names one of the first two. -/
theorem heldSlot_range (buttons : Buttons) (config : Config) :
    1 ≤ heldSlot buttons config ∧ heldSlot buttons config ≤ 4 := by
  unfold heldSlot Config.defaultSlot
  dsimp only
  repeat' split
  all_goals omega

theorem heldImage_fits (buttons : Buttons) (config : Config) :
    (Nand.emu (heldSlot buttons config)).Fits := by
  have hslot := heldSlot_range buttons config
  exact ⟨hslot.1, by omega⟩

theorem sys_fits : Nand.sys.Fits :=
  True.intro

theorem coldNands_fit (buttons : Buttons) (config : Config) :
    (coldNands buttons config).1.Fits ∧ (coldNands buttons config).2.Fits := by
  have himage := heldImage_fits buttons config
  unfold coldNands
  dsimp only
  repeat' split
  all_goals first
    | exact ⟨himage, sys_fits⟩
    | exact ⟨sys_fits, himage⟩
    | exact ⟨himage, himage⟩
    | exact ⟨sys_fits, sys_fits⟩

theorem recordable_starting (inputs : Inputs) : (starting inputs).Recordable := by
  have hcold := coldNands_fit inputs.buttons inputs.config
  unfold starting Recordable
  dsimp only
  split
  · exact ⟨sys_fits, sys_fits⟩
  · exact hcold

theorem recordable_of_ofInputs {inputs : Inputs} {plan : Plan} (h : ofInputs inputs = .ok plan) :
    plan.Recordable := by
  unfold ofInputs at h
  split at h
  · obtain rfl := Except.ok.inj h
    exact recordable_starting inputs
  · split at h
    · obtain rfl := Except.ok.inj h
      exact ⟨Config.fits_nandOf (inputs.config.get_lt .nandUsed),
        Config.fits_nandOf (inputs.config.get_lt .sourceUsed)⟩
    · cases h

end Plan

/-! ## Searches on the card -/

def Call.IsSector (c : Call) : Prop :=
  ∃ sector, c = .getSector sector

namespace CardImage

variable {δ ε : Type} [Card δ]

/-- An image that was found lies in the slot asked for, or in the first. -/
def FoundFor (slot : Nat) (location : Option ImageLocation) : Prop :=
  ∀ found, location = some found → found.slot = slot ∨ found.slot = 1

theorem foundFor_none (slot : Nat) : FoundFor slot none :=
  nofun

theorem safe_isHeader (sector : UInt32) :
    Run.Safe (fun _ : δ => True) (isHeader sector : Run Event ε δ Bool) fun _ => True := by
  have hread : Run.Safe (fun _ : δ => True) (Card.read sector : Run Event ε δ _)
      fun _ => True :=
    Run.Ensures.emit.bind fun _ _ _ _ => ⟨True.intro, True.intro⟩
  apply hread.bind
  intro content _
  cases content <;> exact .pure True.intro

theorem safe_probe (slot : Nat) (model : Model) (builtInSectors partitionStart : UInt32)
    (candidate : Candidate) :
    Run.Safe (fun _ : δ => True)
      (probe slot model builtInSectors partitionStart candidate : Run Event ε δ _)
      (FoundFor slot) := by
  have hfound : ∀ redirect header, FoundFor slot (some ⟨slot, redirect, header⟩) := by
    intro redirect header found hsame
    obtain rfl := Option.some.inj hsame
    exact .inl rfl
  refine .ite (fun _ => .pure (foundFor_none slot)) fun _ => ?_
  refine (safe_isHeader _).bind fun first _ => .ite (fun _ => .pure (hfound _ _)) fun _ => ?_
  refine .ite (fun _ => ?_) fun _ => .pure (foundFor_none slot)
  refine (safe_isHeader _).bind fun last _ => .ite (fun _ => .pure (hfound _ _)) fun _ => ?_
  exact .pure (foundFor_none slot)

theorem safe_searchSlot (slot : Nat) (model : Model) (partitionStart : UInt32) :
    Run.Safe (fun _ : δ => True)
      (searchSlot slot model partitionStart : Run Event ε δ _) (FoundFor slot) := by
  refine Run.Ensures.get.bind fun card _ => .findSomeM fun place => ?_
  exact safe_probe slot model _ partitionStart place

theorem safe_locateOr {missing : Run Event ε δ (Option ImageLocation)} {slot asked : Nat}
    (model : Model) (hslot : ∀ location, FoundFor slot location → FoundFor asked location)
    (hmissing : Run.Safe (fun _ => True) missing (FoundFor asked)) :
    Run.Safe (fun _ : δ => True) (locateOr missing slot model) (FoundFor asked) := by
  have hread : Run.Safe (fun _ : δ => True) (Card.read 0 : Run Event ε δ _) fun _ => True :=
    Run.Ensures.emit.bind fun _ _ _ _ => ⟨True.intro, True.intro⟩
  apply hread.bind
  intro table _
  cases table with
  | none => exact Run.Ensures.emit.bind fun _ _ => .pure (foundFor_none asked)
  | some table =>
    apply (safe_searchSlot slot model _).bind
    intro found hfound
    cases found with
    | none => exact hmissing
    | some location => exact Run.Ensures.emit.bind fun _ _ => .pure (hslot _ hfound)

theorem safe_locate (slot : Nat) (model : Model) :
    Run.Safe (fun _ : δ => True) (locate slot model : Run Event ε δ _) (FoundFor slot) := by
  have hgiveUp : ∀ asked, Run.Safe (fun _ : δ => True) (giveUp : Run Event ε δ _)
      (FoundFor asked) :=
    fun asked => Run.Ensures.emit.bind fun _ _ => .pure (foundFor_none asked)
  have hfirst : ∀ location, FoundFor 1 location → FoundFor slot location :=
    fun location h found hsame => .inr ((h found hsame).elim id id)
  refine safe_locateOr model (fun _ h => h) (.ite (fun _ => hgiveUp slot) fun _ => ?_)
  exact Run.Ensures.emit.bind fun _ _ => safe_locateOr model hfirst (hgiveUp slot)

theorem nandOf_fits {slot : Nat} {location : Option ImageLocation}
    (h : FoundFor slot location) (hslot : (Nand.emu slot).Fits) : (nandOf location).Fits := by
  cases location with
  | none => exact Plan.sys_fits
  | some found =>
    rcases h found rfl with hsame | hone
    · change (Nand.emu found.slot).Fits
      rw [hsame]
      exact hslot
    · change (Nand.emu found.slot).Fits
      rw [hone]
      exact ⟨Nat.le_refl 1, by decide⟩

/-- Settling keeps everything of a plan but its NANDs, and those can still be recorded. -/
theorem safe_resolve {plan : Plan} (hplan : plan.Recordable) :
    Run.Safe (fun _ : δ => True) (resolve plan : Run Event ε δ _) fun settled =>
      settled.1.Recordable ∧ settled.1.kind = plan.kind := by
  obtain ⟨hnand, hsource⟩ := hplan
  unfold resolve
  split
  · next _ _ slot hsame =>
    rw [hsame] at hnand
    refine (safe_locate slot plan.model).bind fun location hlocation => .pure ⟨⟨?_, ?_⟩, rfl⟩
    · exact nandOf_fits hlocation hnand
    · dsimp only
      split
      · exact nandOf_fits hlocation hnand
      · exact hsource
  · next _ _ slot hsys hsame =>
    rw [hsame] at hsource
    refine (safe_locate slot plan.model).bind fun location hlocation => .pure ⟨⟨hnand, ?_⟩, rfl⟩
    exact nandOf_fits hlocation hsource
  · exact .pure ⟨⟨hnand, hsource⟩, rfl⟩

theorem calling_read (sector : UInt32) :
    Run.Calling Call.IsSector (Card.read sector : Run Event ε δ _) :=
  (Run.Calling.call ⟨sector, rfl⟩).bind fun _ => .of_silent fun _ => rfl

theorem calling_isHeader (sector : UInt32) :
    Run.Calling Call.IsSector (isHeader sector : Run Event ε δ Bool) := by
  apply (calling_read sector).bind
  intro content
  cases content <;> exact .pure

theorem calling_probe (slot : Nat) (model : Model) (builtInSectors partitionStart : UInt32)
    (candidate : Candidate) :
    Run.Calling Call.IsSector
      (probe slot model builtInSectors partitionStart candidate : Run Event ε δ _) := by
  refine .ite (fun _ => .pure) fun _ => ?_
  refine (calling_isHeader _).bind fun _ => .ite (fun _ => .pure) fun _ => ?_
  refine .ite (fun _ => ?_) fun _ => .pure
  exact (calling_isHeader _).bind fun _ => .ite (fun _ => .pure) fun _ => .pure

theorem calling_locateOr {missing : Run Event ε δ (Option ImageLocation)} (slot : Nat)
    (model : Model) (hmissing : Run.Calling Call.IsSector missing) :
    Run.Calling Call.IsSector (locateOr missing slot model) := by
  apply (calling_read 0).bind
  intro table
  cases table with
  | none => exact Run.Calling.notice.bind fun _ => .pure
  | some table =>
    refine (Run.Calling.get.bind fun _ =>
      Run.Calling.findSomeM fun place => calling_probe _ _ _ _ place).bind fun found => ?_
    cases found with
    | none => exact hmissing
    | some location => exact Run.Calling.notice.bind fun _ => .pure

theorem calling_locate (slot : Nat) (model : Model) :
    Run.Calling Call.IsSector (locate slot model : Run Event ε δ _) := by
  have hgiveUp : Run.Calling Call.IsSector (giveUp : Run Event ε δ _) :=
    Run.Calling.notice.bind fun _ => .pure
  refine calling_locateOr slot model (.ite (fun _ => hgiveUp) fun _ => ?_)
  exact Run.Calling.notice.bind fun _ => calling_locateOr 1 model hgiveUp

/-- Settling reads sectors, and none when no NAND of the plan is an image. -/
theorem calling_resolve (plan : Plan) :
    Run.Calling (fun c => c.IsSector ∧ ∃ slot, plan.nand = .emu slot ∨ plan.source = .emu slot)
      (resolve plan : Run Event ε δ _) := by
  unfold resolve
  split
  · next _ _ slot hsame =>
    refine ((calling_locate slot plan.model).mono fun c hc => ?_).bind fun _ => .pure
    exact ⟨hc, slot, .inl hsame⟩
  · next _ _ slot hsys hsame =>
    refine ((calling_locate slot plan.model).mono fun c hc => ?_).bind fun _ => .pure
    exact ⟨hc, slot, .inr hsame⟩
  · exact .pure

end CardImage

/-! ## The record -/

namespace Config

variable {σ : Type} [Storage σ]

theorem set?_isSome (config : Config) (field : Field) {value : Nat}
    (h : value < 1 <<< field.width) : (config.set? field value).isSome := by
  rw [set?, if_pos h]
  rfl

theorem recording?_isSome (config : Config) {nand source : Nand} (title : Title)
    (hnand : nand.Fits) (hsource : source.Fits) :
    (config.recording? nand source title).isSome := by
  unfold recording?
  obtain ⟨first, hfirst⟩ := Option.isSome_iff_exists.1
    (config.set?_isSome .nandUsed hnand.codeOf_lt)
  obtain ⟨second, hsecond⟩ := Option.isSome_iff_exists.1
    (first.set?_isSome .sourceUsed hsource.codeOf_lt)
  rw [hfirst, Option.bind_eq_bind, Option.bind_some, hsecond, Option.bind_some]
  apply set?_isSome
  split <;> decide

theorem safe_record (config : Config) (origin : Origin) {plan : Plan}
    (hplan : plan.Recordable) :
    Run.Safe (fun _ : σ => True) (record config origin plan) fun _ => True := by
  unfold record
  cases plan.kind with
  | relaunch => exact .pure True.intro
  | cold =>
    obtain ⟨updated, hupdated⟩ := Option.isSome_iff_exists.1
      (config.recording?_isSome plan.title hplan.1 hplan.2)
    rw [hupdated]
    have hsave : Run.Safe (fun _ : σ => True) (save updated) fun _ => True :=
      Run.Ensures.emit.bind fun _ _ => .ofStep fun _ _ => ⟨True.intro, fun _ _ => True.intro⟩
    exact .guarded (a := ()) (fun _ => hsave) fun _ => .pure True.intro

theorem calls_save (config : Config) (s : σ) :
    Event.calls (save config s).events = [.putFile path config.encode] := by
  unfold save Storage.write
  rw [Run.calls_bind_of_ok rfl, Run.silent_ofStep]
  rfl

theorem record_of_recording? {config updated : Config} {origin : Origin} {plan : Plan}
    (hcold : plan.kind = .cold)
    (hupdated : config.recording? plan.nand plan.source plan.title = some updated) :
    (record config origin plan : Run Event StorageFailure σ _) =
      if origin = .defaulted ∨ updated ≠ config then save updated >>= fun _ => pure updated
      else pure updated := by
  rw [record, hcold]
  dsimp only
  rw [hupdated]

theorem calls_record_cold {config updated : Config} {origin : Origin} {plan : Plan}
    (hcold : plan.kind = .cold)
    (hupdated : config.recording? plan.nand plan.source plan.title = some updated) (s : σ) :
    Event.calls (record config origin plan s).events =
      if origin = .defaulted ∨ updated ≠ config then [.putFile path updated.encode] else [] := by
  rw [record_of_recording? hcold hupdated]
  split
  · have hsave := calls_save updated s
    cases hresult : (save updated s).result with
    | error stop => rw [Run.calls_bind_of_error hresult, hsave]
    | ok _ =>
      rw [Run.calls_bind_of_ok hresult, hsave]
      rfl
  · rfl

/-- A record is at most one write of the configuration file, on a cold boot. -/
theorem calls_record (config : Config) (origin : Origin) (plan : Plan) (s : σ) :
    Event.calls (record config origin plan s).events = [] ∨
      plan.kind = .cold ∧ ∃ data,
        Event.calls (record config origin plan s).events = [.putFile path data] := by
  cases hkind : plan.kind with
  | relaunch =>
    left
    rw [record, hkind]
    rfl
  | cold =>
    cases hupdated : config.recording? plan.nand plan.source plan.title with
    | none =>
      left
      rw [record, hkind, hupdated]
      rfl
    | some updated =>
      rw [calls_record_cold hkind hupdated]
      split
      · exact .inr ⟨rfl, updated.encode, rfl⟩
      · exact .inl rfl

end Config
end BootStage
