import BootStage.Proofs.ProbeOrder
/-!
# Images and the partition

A place is searched when the smallest image of the model fits in front of the first partition. A
header that follows the start of an image lies in that space. A header in the last sector need not:
it is looked for where an image of the size of the built-in NAND ends, and on a console whose NAND
is no smaller than the smallest image that sector can be one of the partition.
-/

namespace BootStage.CardImage

variable {image : SectorImage} {slot : Nat} {model : Model}

/-- The header lies in front of the partition, or it ends an image of the size of the built-in
NAND, of which only the smallest image is known to fit. -/
def HeaderBounded (model : Model) (builtIn partitionStart : Nat) (attempt : Attempt) : Prop :=
  attempt.header < partitionStart ∨
    attempt.header = attempt.redirect + builtIn ∧ smallest model ≤ builtIn ∧
      attempt.redirect + smallest model ≤ partitionStart

theorem one_lt_smallest (model : Model) : 1 < smallest model := by
  cases model <;> decide

theorem Place.bounded_of_mem {place : Place} {builtIn partitionStart : Nat} {attempt : Attempt}
    (heligible : place.Eligible model partitionStart)
    (hattempt : attempt ∈ place.attempts slot builtIn) :
    HeaderBounded model builtIn partitionStart attempt := by
  unfold Place.Eligible at heligible
  have hsmallest := one_lt_smallest model
  rcases List.mem_cons.1 hattempt with rfl | hlast
  · left
    dsimp only
    omega
  · split at hlast
    · obtain rfl := List.mem_singleton.1 hlast
      unfold HeaderBounded
      dsimp only
      omega
    · cases hlast

/-- Whatever is tried is tried at an eligible place. -/
theorem bounded_of_mem_attempts {builtIn partitionStart : Nat} {attempt : Attempt}
    (hattempt : attempt ∈ attempts slot model builtIn partitionStart) :
    HeaderBounded model builtIn partitionStart attempt := by
  obtain ⟨place, -, htried⟩ := List.mem_flatMap.1 hattempt
  split at htried
  · next heligible => exact Place.bounded_of_mem heligible htried
  · cases htried

theorem bounded_of_firstHit {partitionStart : Nat} {attempt : Attempt}
    (h : firstHit image slot model partitionStart = some attempt) :
    HeaderBounded model image.builtInSectors.toNat partitionStart attempt :=
  bounded_of_mem_attempts (List.mem_of_find?_eq_some h)

variable {δ ε : Type} [Card δ] {good : δ → Prop}

/-- A located image has its header in front of the partition, except where the built-in NAND is no
smaller than the smallest image and the header is in the last sector: then only an image of the
smallest size is known to end in front of the partition. -/
theorem located_header_bounded (hcard : Card.ReadsAs image good) (hslot : 1 ≤ slot ∧ slot ≤ 7)
    (hnumbered : Numbered slot model image.builtInSectors.toNat) :
    ∃ location,
      Run.Yields good good (locate slot model : Run Event ε δ _) location ∧
      ∀ found table, location = some found → image.sectors 0 = some table →
        let partitionStart := (Bytes.word table.toArray 0x1C6).toNat
        found.header.toNat < partitionStart ∨
          found.header.toNat = found.redirect.toNat + image.builtInSectors.toNat ∧
            smallest model ≤ image.builtInSectors.toNat ∧
            found.redirect.toNat + smallest model ≤ partitionStart := by
  refine ⟨locateOn image slot model, yields_locate hcard slot model, ?_⟩
  intro found table hfound htable
  have hhit := locateOn_eq hnumbered hslot.2 htable
  rw [hfound, Option.map_some] at hhit
  change HeaderBounded model image.builtInSectors.toNat _ found.attempt
  rcases Option.or_eq_some_iff.1 hhit.symm with hasked | ⟨-, hfirst⟩
  · exact bounded_of_firstHit hasked
  · exact bounded_of_firstHit hfirst

/-! ## A partition right behind the smallest image -/

/-- An Old console with a NAND of the larger size, and a card whose partition starts where the
smallest image ends. A sector in the partition reads like a header. -/
def closePartition : SectorImage :=
  headed 0x1DD000 0x1D8000 [0x1DD000]

theorem yields_closePartition :
    Run.Yields (· = closePartition) (· = closePartition)
      (locate 1 .old : Run Event BootFailure SectorImage _) (some ⟨1, 0, 0x1DD000⟩) := by
  have hlocation : locateOn closePartition 1 .old = some ⟨1, 0, 0x1DD000⟩ := by
    apply locateOn_headed (numbered_first .old 0x1DD000) (by decide)
    rw [firstHit_headed]
    decide
  rw [← hlocation]
  exact yields_locate (SectorImage.readsAs closePartition) 1 .old

/-- The header is at the end of an image of the size of the NAND, and the smallest image fits. -/
theorem located_header_bounded_close :
    Card.ReadsAs closePartition (· = closePartition) ∧
      Numbered 1 .old closePartition.builtInSectors.toNat ∧
      Run.Yields (· = closePartition) (· = closePartition)
        (locate 1 .old : Run Event BootFailure SectorImage _) (some ⟨1, 0, 0x1DD000⟩) ∧
      smallest .old ≤ closePartition.builtInSectors.toNat ∧ 0 + smallest .old ≤ 0x1D8000 := by
  have hcard := SectorImage.readsAs closePartition
  have hnumbered := numbered_first .old closePartition.builtInSectors
  obtain ⟨location, hyields, hbounded⟩ :=
    located_header_bounded (ε := BootFailure) hcard (by decide) hnumbered
  obtain rfl := Except.ok.inj
    ((hyields closePartition rfl).1.symm.trans (yields_closePartition closePartition rfl).1)
  obtain ⟨table, htable, hword⟩ := table_headed 0x1DD000 0x1D8000 [0x1DD000]
  have hheader := hbounded _ table rfl htable
  dsimp only at hheader
  rw [hword] at hheader
  obtain hbelow | ⟨-, hsmall, hfits⟩ := hheader
  · exact absurd hbelow (by decide)
  · exact ⟨hcard, hnumbered, hyields, hsmall, hfits⟩

/-- The header that is found is a sector of the partition. -/
theorem closePartition_header_inside :
    ∃ found table,
      Run.Yields (· = closePartition) (· = closePartition)
        (locate 1 .old : Run Event BootFailure SectorImage _) (some found) ∧
      closePartition.sectors 0 = some table ∧
      ¬found.header.toNat < (Bytes.word table.toArray 0x1C6).toNat := by
  obtain ⟨table, htable, hword⟩ := table_headed 0x1DD000 0x1D8000 [0x1DD000]
  refine ⟨⟨1, 0, 0x1DD000⟩, table, yields_closePartition, htable, ?_⟩
  rw [hword]
  decide

end BootStage.CardImage
