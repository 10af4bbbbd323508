import BootStage.Proofs.CardSearch
/-!
# What a plan is settled on

The NAND that the firmware runs on is searched for on the card, and what it is settled on is there:
a search for its own slot finds it again. The NAND the firmware is read from is searched for only
where it is the same one or the firmware runs on the built-in NAND. Those are all the choices of a
cold boot. A relaunch takes both NANDs from the configuration, and where these are two images it
keeps the second one whether the card has it or not.
-/

namespace BootStage

variable {δ : Type} [Card δ]

/-- The NAND is there: it is the one built in, or a search for its slot finds an image in that
very slot. -/
def Nand.Present (good : δ → Prop) (model : Model) : Nand → Prop
  | .sys => True
  | .emu slot => ∃ found : ImageLocation,
      Run.Yields good good (CardImage.locate slot model : Run Event BootFailure δ _) (some found) ∧
        found.slot = slot

/-- Two images in different slots, one to run and one to read the firmware from. -/
def Plan.Mixed (plan : Plan) : Prop :=
  plan.nand ≠ .sys ∧ plan.source ≠ .sys ∧ plan.source ≠ plan.nand

theorem Plan.coldNands_alike (buttons : Buttons) (config : Config) :
    (coldNands buttons config).1 = .sys ∨ (coldNands buttons config).2 = .sys ∨
      (coldNands buttons config).2 = (coldNands buttons config).1 := by
  unfold coldNands
  dsimp only
  split
  · split
    · exact .inr (.inl rfl)
    · exact .inl rfl
  · split
    · exact .inr (.inr rfl)
    · exact .inl rfl

/-- A cold boot mixes an image with the built-in NAND only. -/
theorem Plan.not_mixed_starting (inputs : Inputs) : ¬(starting inputs).Mixed := by
  rintro ⟨hnand, hsource, hother⟩
  unfold starting at hnand hsource hother
  dsimp only at hnand hsource hother
  by_cases hrecovers : inputs.buttons = .recovery
  · rw [if_pos hrecovers] at hnand
    exact hnand rfl
  · rw [if_neg hrecovers] at hnand hsource hother
    rcases coldNands_alike inputs.buttons inputs.config with hrun | hread | hsame
    · exact hnand hrun
    · exact hsource hread
    · exact hother hsame

namespace CardImage

variable {image : SectorImage} {good : δ → Prop} {plan : Plan}

theorem nandOf_eq_sys_iff {location : Option ImageLocation} :
    nandOf location = .sys ↔ location = none := by
  cases location <;> simp [nandOf]

theorem present_nandOf (hcard : Card.ReadsAs image good) (slot : Nat) (model : Model) :
    (nandOf (locateOn image slot model)).Present good model := by
  cases hfound : locateOn image slot model with
  | none => exact True.intro
  | some found =>
    have hagain := yields_locate (ε := BootFailure) hcard found.slot model
    rw [locateOn_again hfound] at hagain
    exact ⟨found, hagain, rfl⟩

omit [Card δ] in
theorem nand_resolveOn (image : SectorImage) (plan : Plan) :
    (resolveOn image plan).1.nand = nandOf (resolveOn image plan).2 := by
  unfold resolveOn
  cases hnand : plan.nand with
  | emu slot => rfl
  | sys =>
    cases plan.source with
    | emu slot => rfl
    | sys => exact hnand

omit [Card δ] in
theorem locateOn_of_resolveOn {found : ImageLocation} (h : (resolveOn image plan).2 = some found) :
    locateOn image found.slot plan.model = some found := by
  unfold resolveOn at h
  cases hnand : plan.nand with
  | emu slot =>
    rw [hnand] at h
    exact locateOn_again h
  | sys =>
    rw [hnand] at h
    cases hsource : plan.source with
    | emu slot =>
      rw [hsource] at h
      cases h
    | sys =>
      rw [hsource] at h
      cases h

omit [Card δ] in
theorem resolveOn_of_sys (hnand : plan.nand = .sys) (hsource : plan.source = .sys) :
    resolveOn image plan = (plan, none) := by
  rw [resolveOn, hnand, hsource]

/-- The source of a plan is settled too, unless the plan mixes two images and the first one was
found. -/
theorem present_source_resolveOn (hcard : Card.ReadsAs image good)
    (h : ¬plan.Mixed ∨ (resolveOn image plan).2 = none) :
    (resolveOn image plan).1.source.Present good plan.model := by
  unfold resolveOn at h ⊢
  cases hnand : plan.nand with
  | sys =>
    cases hsource : plan.source with
    | sys =>
      dsimp only
      rw [hsource]
      exact True.intro
    | emu slot => exact present_nandOf hcard slot plan.model
  | emu slot =>
    rw [hnand] at h
    dsimp only at h ⊢
    split
    · exact present_nandOf hcard slot plan.model
    · next hkept =>
      -- Kept without a search, the source is the built-in NAND.
      cases hsource : plan.source with
      | sys => exact True.intro
      | emu other =>
        rw [hsource] at hkept
        refine absurd ?_ hkept
        rcases h with hunmixed | hnone
        · refine .inr (Decidable.byContradiction fun hother => hunmixed ?_)
          exact ⟨hnand ▸ nofun, hsource ▸ nofun, hnand ▸ hsource ▸ hother⟩
        · exact .inl (Option.isNone_iff_eq_none.2 hnone)

omit [Card δ] in
/-- A second image is kept without a search where the first one was found. -/
theorem source_resolveOn_of_mixed (hmixed : plan.Mixed) (h : (resolveOn image plan).2 ≠ none) :
    (resolveOn image plan).1.source = plan.source := by
  obtain ⟨hrun, -, hother⟩ := hmixed
  unfold resolveOn at h ⊢
  cases hnand : plan.nand with
  | sys => exact absurd hnand hrun
  | emu slot =>
    rw [hnand] at h hother
    dsimp only at h ⊢
    rw [if_neg]
    rintro (hnone | hsame)
    · exact h (Option.isNone_iff_eq_none.1 hnone)
    · exact hother hsame

/-- On a card that reads the same again, any plan is settled, and the NAND to run is there, with
its location exactly where it is an image. The NAND to read the firmware from is there as well,
unless the plan names two images in different slots and the one to run was found; then it is left
as it was, without a search. Only a relaunch can have such a plan. -/
theorem resolve_settles (hcard : Card.ReadsAs image good) (plan : Plan) :
    ∃ settled location,
      Run.Yields good good (resolve plan : Run Event BootFailure δ _) (settled, location) ∧
      settled.nand.Present good plan.model ∧
      (location = none ↔ settled.nand = .sys) ∧
      (∀ found, location = some found → settled.nand = .emu found.slot ∧
        Run.Yields good good (locate found.slot plan.model : Run Event BootFailure δ _)
          (some found)) ∧
      (plan.nand = .sys → plan.source = .sys → settled = plan) ∧
      (¬plan.Mixed ∨ location = none → settled.source.Present good plan.model) ∧
      (plan.Mixed → location ≠ none → settled.source = plan.source) ∧
      ∀ inputs, inputs.launchFlag = 0 → Plan.ofInputs inputs = .ok plan → ¬plan.Mixed := by
  have hruns := nand_resolveOn image plan
  refine ⟨(resolveOn image plan).1, (resolveOn image plan).2, yields_resolve hcard plan, ?present,
    by rw [hruns, nandOf_eq_sys_iff], fun found hfound => ?found,
    fun hnand hsource => by rw [resolveOn_of_sys hnand hsource], present_source_resolveOn hcard,
    source_resolveOn_of_mixed, fun inputs hcold hplan => ?cold⟩
  case present =>
    rw [hruns]
    cases hlocation : (resolveOn image plan).2 with
    | none => exact True.intro
    | some found =>
      rw [← locateOn_of_resolveOn hlocation]
      exact present_nandOf hcard found.slot plan.model
  case found =>
    have hagain := yields_locate (ε := BootFailure) hcard found.slot plan.model
    rw [locateOn_of_resolveOn hfound] at hagain
    exact ⟨by rw [hruns, hfound]; rfl, hagain⟩
  case cold =>
    rw [Plan.ofInputs, if_pos hcold] at hplan
    obtain rfl := Except.ok.inj hplan
    exact Plan.not_mixed_starting inputs

/-! ## A relaunch with two images of which the card has one -/

def sectorWith (pos : Nat) (data : Bytes) : Sector :=
  ⟨Bytes.overwrite (Array.replicate 0x200 0) pos data,
    (Bytes.size_overwrite _ _ _).trans Array.size_replicate⟩

/-- A card with an image in slot 2 and none in slots 1 and 3. -/
def secondImageOnly : SectorImage where
  builtInSectors := 0x1D7800
  sectors := fun sector => some <|
    if sector = 0 then sectorWith partitionStartPos (.ofWord 0x800000)
    else if sector = 0x200001 then sectorWith magicPos magic
    else sectorWith 0 #[]

/-- The configuration recorded slot 2 as the NAND to run and slot 3 as the source. -/
def mixedRelaunch : Inputs :=
  ⟨Plan.digitZero, 0, .none, .old, false, ⟨0x1A⟩⟩

def mixedPlan : Plan :=
  Plan.relaunching mixedRelaunch .native

theorem mixed_mixedPlan : mixedPlan.Mixed :=
  ⟨by decide, by decide, by decide⟩

theorem resolveOn_mixedPlan :
    resolveOn secondImageOnly mixedPlan = (mixedPlan, some ⟨2, 0x200001, 0x200001⟩) := by
  decide +kernel

theorem yields_mixedPlan :
    Run.Yields (· = secondImageOnly) (· = secondImageOnly)
      (resolve mixedPlan : Run Event BootFailure SectorImage _)
      (mixedPlan, some ⟨2, 0x200001, 0x200001⟩) := by
  rw [← resolveOn_mixedPlan]
  exact yields_resolve (SectorImage.readsAs secondImageOnly) mixedPlan

/-- The image in slot 2 is found, and the source stays what it was. -/
theorem resolve_settles_secondImage :
    Card.ReadsAs secondImageOnly (· = secondImageOnly) ∧
      ∃ settled,
        Run.Yields (· = secondImageOnly) (· = secondImageOnly)
          (resolve mixedPlan : Run Event BootFailure SectorImage _)
          (settled, some ⟨2, 0x200001, 0x200001⟩) ∧
        settled.nand = .emu 2 ∧ settled.nand.Present (· = secondImageOnly) .old ∧
        settled.source = mixedPlan.source := by
  have hcard := SectorImage.readsAs secondImageOnly
  obtain ⟨settled, location, hsettles, hpresent, -, hfound, -, -, hkept, -⟩ :=
    resolve_settles hcard mixedPlan
  have hresult :=
    (hsettles secondImageOnly rfl).1.symm.trans (yields_mixedPlan secondImageOnly rfl).1
  obtain ⟨-, rfl⟩ := Prod.mk.inj (Except.ok.inj hresult)
  exact ⟨hcard, settled, hsettles, (hfound _ rfl).1, hpresent, hkept mixed_mixedPlan nofun⟩

/-- The source is left on slot 3, where the card has nothing. -/
theorem mixedRelaunch_source_absent :
    Plan.ofInputs mixedRelaunch = .ok mixedPlan ∧
      ∃ settled location,
        Run.Yields (· = secondImageOnly) (· = secondImageOnly)
          (resolve mixedPlan : Run Event BootFailure SectorImage _) (settled, location) ∧
        settled.source = .emu 3 ∧
        ¬settled.source.Present (· = secondImageOnly) mixedPlan.model := by
  refine ⟨rfl, mixedPlan, _, yields_mixedPlan, rfl, ?_⟩
  rintro ⟨found, hfound, -⟩
  have hmissing : locateOn secondImageOnly 3 .old = none := by decide +kernel
  have hnone := yields_locate (ε := BootFailure) (SectorImage.readsAs secondImageOnly) 3 .old
  rw [hmissing] at hnone
  exact nomatch (hfound secondImageOnly rfl).1.symm.trans (hnone secondImageOnly rfl).1

end CardImage
end BootStage
