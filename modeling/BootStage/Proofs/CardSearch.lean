import BootStage.Device.InMemory
import BootStage.Proofs.Slots
/-!
# Searching a card

On a card that reads the same however often it is read, a search for an image is a function of
the card's sectors. What it finds it finds again in the slot it was found in, so settling a plan
a second time changes nothing.
-/

namespace BootStage

variable {δ ε : Type} [Card δ]

/-- The card reads as `image` whatever was read before. `good` says that this is such a card. -/
structure Card.ReadsAs (image : SectorImage) (good : δ → Prop) : Prop where
  builtInSectors : ∀ card, good card → Card.builtInSectors card = image.builtInSectors
  getSector : ∀ sector card, good card →
    (Card.getSector sector card).1 = image.sectors sector ∧ good (Card.getSector sector card).2

theorem SectorImage.readsAs (image : SectorImage) : Card.ReadsAs image (· = image) where
  builtInSectors card hcard := by rw [hcard]; rfl
  getSector sector card hcard := by rw [hcard]; exact ⟨rfl, rfl⟩

namespace CardImage

variable {image : SectorImage} {good : δ → Prop}

def isHeaderOn (image : SectorImage) (sector : UInt32) : Bool :=
  match image.sectors sector with
  | some content => Bytes.window content.toArray magicPos 4 = magic
  | none => false

def probeOn (image : SectorImage) (slot : Nat) (model : Model) (partitionStart : UInt32)
    (candidate : Candidate) : Option ImageLocation :=
  let offset := candidate.offset
  if partitionStart < offset + minSectors model then none
  else if isHeaderOn image (offset + 1) then some ⟨slot, offset + 1, offset + 1⟩
  else if candidate.trailingHeader then
    if isHeaderOn image (offset + image.builtInSectors) then
      some ⟨slot, offset, offset + image.builtInSectors⟩
    else none
  else none

def searchOn (image : SectorImage) (slot : Nat) (model : Model) (partitionStart : UInt32) :
    Option ImageLocation :=
  (candidates slot model image.builtInSectors).findSome?
    (probeOn image slot model partitionStart)

def locateOn (image : SectorImage) (slot : Nat) (model : Model) : Option ImageLocation :=
  match image.sectors 0 with
  | none => none
  | some table =>
    let partitionStart := Bytes.word table.toArray partitionStartPos
    (searchOn image slot model partitionStart).or (searchOn image 1 model partitionStart)

/-- A plan in line with the images on the card, and the one its firmware runs on. -/
def resolveOn (image : SectorImage) (plan : Plan) : Plan × Option ImageLocation :=
  match plan.nand, plan.source with
  | .emu slot, source =>
    let location := locateOn image slot plan.model
    let found := nandOf location
    ({ plan with
        nand := found
        source := if location.isNone ∨ source = .emu slot then found else source }, location)
  | .sys, .emu slot => ({ plan with source := nandOf (locateOn image slot plan.model) }, none)
  | .sys, .sys => (plan, none)

/-! ## Searches are functions of the sectors -/

theorem yields_read (hcard : Card.ReadsAs image good) (sector : UInt32) :
    Run.Yields good good (Card.read sector : Run Event ε δ _) (image.sectors sector) := by
  refine Run.Yields.emit.bind fun card hgood => ?_
  obtain ⟨hread, hkept⟩ := hcard.getSector sector card hgood
  exact ⟨congrArg Except.ok hread, hkept⟩

theorem yields_isHeader (hcard : Card.ReadsAs image good) (sector : UInt32) :
    Run.Yields good good (isHeader sector : Run Event ε δ Bool) (isHeaderOn image sector) := by
  unfold isHeaderOn
  refine (yields_read hcard sector).bind ?_
  cases image.sectors sector <;> exact .pure

theorem yields_probe (hcard : Card.ReadsAs image good) (slot : Nat) (model : Model)
    (partitionStart : UInt32) (candidate : Candidate) :
    Run.Yields good good
      (probe slot model image.builtInSectors partitionStart candidate : Run Event ε δ _)
      (probeOn image slot model partitionStart candidate) := by
  unfold probe probeOn
  dsimp only
  split
  · exact .pure
  refine (yields_isHeader hcard _).bind ?_
  split
  · exact .pure
  split
  · refine (yields_isHeader hcard _).bind ?_
    split
    · exact .pure
    · exact .pure
  · exact .pure

theorem yields_searchSlot (hcard : Card.ReadsAs image good) (slot : Nat) (model : Model)
    (partitionStart : UInt32) :
    Run.Yields good good (searchSlot slot model partitionStart : Run Event ε δ _)
      (searchOn image slot model partitionStart) := by
  intro card hgood
  have hsearch : Run.Yields good good
      ((candidates slot model image.builtInSectors).findSomeM?
        (probe slot model image.builtInSectors partitionStart) : Run Event ε δ _)
      (searchOn image slot model partitionStart) :=
    .findSomeM fun place => yields_probe hcard slot model partitionStart place
  unfold searchSlot
  rw [Run.bind_of_ok (m := get) rfl]
  dsimp only
  rw [hcard.builtInSectors card hgood]
  exact hsearch card hgood

theorem yields_locateOr (hcard : Card.ReadsAs image good) (slot : Nat) (model : Model)
    {table : Sector} {missing : Run Event ε δ (Option ImageLocation)}
    {other : Option ImageLocation} (htable : image.sectors 0 = some table)
    (hmissing : Run.Yields good good missing other) :
    Run.Yields good good (locateOr missing slot model)
      ((searchOn image slot model (Bytes.word table.toArray partitionStartPos)).or other) := by
  refine (yields_read hcard 0).bind ?_
  rw [htable]
  refine (yields_searchSlot hcard slot model _).bind ?_
  cases searchOn image slot model (Bytes.word table.toArray partitionStartPos) with
  | none => exact hmissing
  | some found => exact Run.Yields.emit.bind .pure

theorem yields_locate (hcard : Card.ReadsAs image good) (slot : Nat) (model : Model) :
    Run.Yields good good (locate slot model : Run Event ε δ _) (locateOn image slot model) := by
  unfold locateOn
  cases htable : image.sectors 0 with
  | none =>
    refine (yields_read hcard 0).bind ?_
    rw [htable]
    exact Run.Yields.emit.bind .pure
  | some table =>
    have hgiveUp : Run.Yields good good (giveUp : Run Event ε δ _) none :=
      Run.Yields.emit.bind .pure
    -- Slot 1 has nothing to fall back to; in `locateOn` a second search repeats the first.
    have hfirst := yields_locateOr hcard 1 model htable hgiveUp
    rw [Option.or_none] at hfirst
    unfold locate
    dsimp only
    by_cases hslot : slot = 1
    · rw [if_pos hslot, hslot, Option.or_self]
      exact hfirst
    · rw [if_neg hslot]
      exact yields_locateOr hcard slot model htable (Run.Yields.emit.bind hfirst)

/-- Settling a plan is a function of the plan and the sectors. -/
theorem yields_resolve (hcard : Card.ReadsAs image good) (plan : Plan) :
    Run.Yields good good (resolve plan : Run Event ε δ _) (resolveOn image plan) := by
  unfold resolve resolveOn
  cases hnand : plan.nand with
  | emu slot => exact (yields_locate hcard slot plan.model).bind .pure
  | sys =>
    cases hsource : plan.source with
    | emu slot => exact (yields_locate hcard slot plan.model).bind .pure
    | sys => exact .pure

/-- What holds however the card reads holds of a card of these sectors. -/
theorem resolveOn_of_safe (image : SectorImage) {plan : Plan}
    {Q : Plan × Option ImageLocation → Prop}
    (h : Run.Safe (fun _ : SectorImage => True) (resolve plan : Run Event BootFailure _ _) Q) :
    Q (resolveOn image plan) := by
  have hyields := yields_resolve (ε := BootFailure) (SectorImage.readsAs image) plan image rfl
  have hsafe := (h image True.intro).2
  rw [hyields.1] at hsafe
  exact hsafe

theorem recordable_resolveOn (image : SectorImage) {plan : Plan} (hplan : plan.Recordable) :
    (resolveOn image plan).1.Recordable ∧ (resolveOn image plan).1.kind = plan.kind :=
  resolveOn_of_safe image (safe_resolve hplan)

/-! ## Searching again -/

omit [Card δ] in
theorem slot_of_searchOn {slot : Nat} {model : Model} {partitionStart : UInt32}
    {found : ImageLocation} (h : searchOn image slot model partitionStart = some found) :
    found.slot = slot := by
  unfold searchOn at h
  obtain ⟨place, -, hplace⟩ := List.exists_of_findSome?_eq_some h
  unfold probeOn at hplace
  dsimp only at hplace
  repeat' split at hplace
  all_goals first
    | exact (congrArg ImageLocation.slot (Option.some.inj hplace)).symm
    | cases hplace

/-- What a search found, a search for its own slot finds again. -/
theorem locateOn_again {slot : Nat} {model : Model} {found : ImageLocation}
    (h : locateOn image slot model = some found) :
    locateOn image found.slot model = some found := by
  unfold locateOn at h ⊢
  cases htable : image.sectors 0 with
  | none =>
    rw [htable] at h
    cases h
  | some table =>
    rw [htable] at h
    dsimp only at h ⊢
    rcases Option.or_eq_some_iff.1 h with hfirst | ⟨-, hsecond⟩
    · rw [slot_of_searchOn hfirst, hfirst, Option.some_or]
    · rw [slot_of_searchOn hsecond, hsecond, Option.some_or]

/-- A plan that starts from the NANDs another was settled on is settled on them again. -/
theorem resolveOn_again {plan next : Plan} (hmodel : next.model = plan.model)
    (hnand : next.nand = (resolveOn image plan).1.nand)
    (hsource : next.source = (resolveOn image plan).1.source) :
    (resolveOn image next).1.nand = (resolveOn image plan).1.nand ∧
      (resolveOn image next).1.source = (resolveOn image plan).1.source ∧
      (resolveOn image next).2 = (resolveOn image plan).2 := by
  unfold resolveOn at hnand hsource ⊢
  rw [hmodel]
  cases hplan : plan.nand with
  | emu slot =>
    rw [hplan] at hnand hsource
    dsimp only at hnand hsource ⊢
    cases hlocation : locateOn image slot plan.model with
    | none =>
      rw [hlocation] at hnand hsource
      rw [if_pos (.inl rfl)] at hsource ⊢
      rw [hnand, hsource]
      exact ⟨hnand, hsource, rfl⟩
    | some found =>
      have hagain := locateOn_again hlocation
      rw [hlocation] at hnand hsource
      change next.nand = .emu found.slot at hnand
      rw [hnand]
      dsimp only
      rw [hagain]
      refine ⟨rfl, ?_, rfl⟩
      rw [← hsource]
      -- A source in the slot found is replaced by that very slot.
      split
      · next hsame => exact (hsame.resolve_left nofun).symm
      · rfl
  | sys =>
    rw [hplan] at hnand hsource
    cases hother : plan.source with
    | sys =>
      rw [hother] at hnand hsource
      dsimp only at hnand hsource ⊢
      rw [hnand, hsource, hplan, hother]
      exact ⟨hnand.trans hplan, hsource.trans hother, rfl⟩
    | emu slot =>
      rw [hother] at hnand hsource
      dsimp only at hnand hsource ⊢
      cases hlocation : locateOn image slot plan.model with
      | none =>
        rw [hlocation] at hsource
        change next.source = .sys at hsource
        rw [hnand, hsource]
        exact ⟨hnand, hsource, rfl⟩
      | some found =>
        have hagain := locateOn_again hlocation
        rw [hlocation] at hsource
        change next.source = .emu found.slot at hsource
        rw [hnand, hsource]
        dsimp only
        rw [hagain]
        exact ⟨rfl, rfl, rfl⟩

end CardImage
end BootStage
