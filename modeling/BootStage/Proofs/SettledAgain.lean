import BootStage.Proofs.ProbeOrder
/-!
# Settling twice

A plan that was settled names what a search came to, and a search for that comes to the same
again. Settling it a second time therefore changes nothing, also where the first time made two
different NANDs of the plan one and so takes another way.
-/

namespace BootStage.CardImage

variable {δ ε : Type} [Card δ] {image : SectorImage} {good : δ → Prop}

/-- What settling a plan leaves as it was, however the card reads. -/
theorem frame_resolve (plan : Plan) :
    Run.Safe (fun _ : δ => True) (resolve plan : Run Event ε δ _) fun settled =>
      settled.1 = { plan with nand := settled.1.nand, source := settled.1.source } := by
  unfold resolve
  split
  · next slot _ => exact (safe_locate slot plan.model).bind fun _ _ => .pure rfl
  · next slot _ _ => exact (safe_locate slot plan.model).bind fun _ _ => .pure rfl
  · exact .pure rfl

theorem frame_resolveOn (image : SectorImage) (plan : Plan) :
    (resolveOn image plan).1 =
      { plan with
        nand := (resolveOn image plan).1.nand
        source := (resolveOn image plan).1.source } :=
  resolveOn_of_safe image (frame_resolve plan)

theorem resolveOn_settled (image : SectorImage) (plan : Plan) :
    resolveOn image (resolveOn image plan).1 = resolveOn image plan := by
  have hmodel : (resolveOn image plan).1.model = plan.model := by rw [frame_resolveOn]
  obtain ⟨hnand, hsource, hlocation⟩ := resolveOn_again hmodel rfl rfl
  have hplan : (resolveOn image (resolveOn image plan).1).1 = (resolveOn image plan).1 := by
    rw [frame_resolveOn image (resolveOn image plan).1, hnand, hsource]
  exact Prod.ext hplan hlocation

/-- On a card that reads the same again, settling a plan once more changes nothing of it and comes
to the same location. On any card, settling changes nothing of a plan but its two NANDs. -/
theorem resolve_idempotent (hcard : Card.ReadsAs image good) (plan : Plan) :
    (∃ settled location,
      Run.Yields good good (resolve plan : Run Event ε δ _) (settled, location) ∧
        Run.Yields good good (resolve settled : Run Event ε δ _) (settled, location) ∧
        settled.nand = nandOf location) ∧
      ∀ (card : δ) settled location,
        ((resolve plan : Run Event ε δ _) card).result = .ok (settled, location) →
          settled = { plan with nand := settled.nand, source := settled.source } := by
  refine ⟨⟨(resolveOn image plan).1, (resolveOn image plan).2, yields_resolve hcard plan, ?again,
    nand_resolveOn image plan⟩, fun card settled location hresult => ?frame⟩
  case again =>
    have hagain := yields_resolve (ε := ε) hcard (resolveOn image plan).1
    rw [resolveOn_settled] at hagain
    exact hagain
  case frame =>
    have hframe := (frame_resolve (ε := ε) plan card True.intro).2
    rw [hresult] at hframe
    exact hframe

/-! ## Two NANDs that become one -/

/-- The configuration recorded slot 3 as the NAND to run and slot 1 as the source. -/
def thirdOnFirst : Plan :=
  Plan.relaunching ⟨Plan.digitZero, 0, .none, .old, false, ⟨0x0B⟩⟩ .native

theorem resolveOn_thirdOnFirst :
    resolveOn firstImageOnly thirdOnFirst =
      ({ thirdOnFirst with nand := .emu 1 }, some ⟨1, 0, 0x1D7800⟩) := by
  have hlocation : locateOn firstImageOnly 3 .old = some ⟨1, 0, 0x1D7800⟩ := by
    apply locateOn_headed numbered_firstImageOnly (by decide)
    rw [firstHit_headed, firstHit_headed]
    decide
  have hnand : thirdOnFirst.nand = .emu 3 := by decide
  have hsource : thirdOnFirst.source = .emu 1 := by decide
  have hmodel : thirdOnFirst.model = .old := rfl
  unfold resolveOn
  rw [hnand, hsource, hmodel]
  dsimp only
  rw [hlocation]
  rfl

/-- Slot 1 stands in for slot 3, and the second time the NAND and the source are the same. -/
theorem resolve_idempotent_joined :
    thirdOnFirst.nand = .emu 3 ∧ thirdOnFirst.source = .emu 1 ∧
      Card.ReadsAs firstImageOnly (· = firstImageOnly) ∧
      ∃ settled,
        settled.nand = .emu 1 ∧ settled.source = .emu 1 ∧
        Run.Yields (· = firstImageOnly) (· = firstImageOnly)
          (resolve thirdOnFirst : Run Event BootFailure SectorImage _)
          (settled, some ⟨1, 0, 0x1D7800⟩) ∧
        Run.Yields (· = firstImageOnly) (· = firstImageOnly)
          (resolve settled : Run Event BootFailure SectorImage _)
          (settled, some ⟨1, 0, 0x1D7800⟩) := by
  have hcard := SectorImage.readsAs firstImageOnly
  obtain ⟨⟨settled, location, hsettles, hagain, hnand⟩, -⟩ :=
    resolve_idempotent (ε := BootFailure) hcard thirdOnFirst
  have hjoined := yields_resolve (ε := BootFailure) hcard thirdOnFirst
  rw [resolveOn_thirdOnFirst] at hjoined
  have hresult := (hsettles firstImageOnly rfl).1.symm.trans (hjoined firstImageOnly rfl).1
  obtain ⟨rfl, rfl⟩ := Prod.mk.inj (Except.ok.inj hresult)
  exact ⟨by decide, by decide, hcard, _, hnand, by decide, hsettles, hagain⟩

end BootStage.CardImage
