import BootStage.Proofs.KernelLayout
import BootStage.Proofs.Placements
/-!
# Alignment of placed code

A placement leaves the free space at a multiple of four, so every piece but the first goes to one.
The first goes right behind the first byte of filler, wherever in the page that was found.
-/

namespace BootStage

/-- Free space starts behind the first byte of the lowest filler in the page. -/
theorem Arena.next_of_locate {code : Bytes} {kernel : Kernel} {arena : Arena}
    (h : locate code kernel = .ok arena) :
    ∃ found, arena.next = found + 1 ∧
      IsLeast {place | kernel.page ≤ place ∧ place + filler.size ≤ arena.stop ∧
        OccursAt code filler place} found := by
  unfold locate at h
  dsimp only at h
  split at h
  · next found hfound =>
    obtain rfl := Except.ok.inj h
    obtain ⟨page, hpage, hfiller⟩ := Option.bind_eq_some_iff.1 hfound
    obtain ⟨hstart, hstop, -⟩ := Bytes.range?_some hpage
    rw [Bytes.range?_eq_some hstart hstop] at hpage
    obtain rfl := Option.some.inj hpage
    have hleast := (Bytes.occurrence?_eq_some_iff (by decide)).1 hfiller
    exact ⟨kernel.page + found, rfl, (Bytes.isLeast_extract_iff hstart hstop).1 hleast⟩
  · cases h

namespace KernelImage

/-- The positions that those of the pieces go to that find room, in turn. -/
def positions (image : KernelImage) : List Piece → List Nat
  | [] => []
  | piece :: later =>
    match (image.placing piece).result with
    | .ok pos => pos :: (image.placing piece).state.positions later
    | .error _ => (image.placing piece).state.positions later

/-- From aligned free space all pieces go to multiples of four. -/
theorem positions_aligned {image : KernelImage} (h : image.arena.next % 4 = 0)
    (pieces : List Piece) : ∀ pos ∈ image.positions pieces, pos % 4 = 0 := by
  induction pieces generalizing image with
  | nil => simp [positions]
  | cons piece later ih =>
    intro pos hpos
    rw [positions] at hpos
    have hlater := ih ((image.grows_placing piece).aligned h)
    cases hresult : (image.placing piece).result with
    | error stop =>
      rw [hresult] at hpos
      exact hlater pos hpos
    | ok placed =>
      rw [hresult] at hpos
      obtain ⟨hfirst, -⟩ := placing_eq_ok hresult
      rcases List.mem_cons.1 hpos with rfl | hmem
      · rw [hfirst, h]
      · exact hlater pos hmem

theorem positions_cases (image : KernelImage) (pieces : List Piece) :
    image.positions pieces = [] ∨
      ∃ later, image.positions pieces = image.arena.next :: later ∧ ∀ pos ∈ later, pos % 4 = 0 := by
  induction pieces with
  | nil => exact .inl rfl
  | cons piece rest ih =>
    cases hresult : (image.placing piece).result with
    | error stop =>
      have hkept : (image.placing piece).state = image := by
        rcases image.placing_cases piece with ⟨err, hfailed⟩ | ⟨-, -, hplaced⟩
        · rw [hfailed]
        · rw [hplaced] at hresult
          cases hresult
      have hsame : image.positions (piece :: rest) = image.positions rest := by
        rw [positions, hresult, hkept]
      rw [hsame]
      exact ih
    | ok placed =>
      obtain ⟨rfl, -, -, haligned, -⟩ := placing_eq_ok hresult
      refine .inr ⟨(image.placing piece).state.positions rest, ?_, positions_aligned haligned rest⟩
      rw [positions, hresult]

/-- Whatever pieces are tried on a section with the free space that was found in it, the first that
finds room goes behind the first byte of filler and all others to multiples of four. So they all
are aligned just where that byte ends at a multiple of four. -/
theorem placements_aligned_behind_first {code : Bytes} {kernel : Kernel} {arena : Arena}
    (h : Arena.locate code kernel = .ok arena) (pieces : List Piece) :
    (∃ found, arena.next = found + 1 ∧
      IsLeast {place | kernel.page ≤ place ∧ place + Arena.filler.size ≤ arena.stop ∧
        OccursAt code Arena.filler place} found) ∧
    (∀ pos ∈ (positions ⟨code, arena⟩ pieces).head?, pos = arena.next) ∧
    (∀ pos ∈ (positions ⟨code, arena⟩ pieces).tail, pos % 4 = 0) ∧
    ((∀ pos ∈ positions ⟨code, arena⟩ pieces, pos % 4 = 0) ↔
      positions ⟨code, arena⟩ pieces = [] ∨ arena.next % 4 = 0) := by
  refine ⟨Arena.next_of_locate h, ?_⟩
  rcases positions_cases ⟨code, arena⟩ pieces with hnone | ⟨later, hsome, hlater⟩
  · simp [hnone]
  · rw [hsome]
    refine ⟨by simp, by simpa using hlater, ?_⟩
    simpa using fun _ => hlater

/-- A section whose handler is a null word, with eight bytes of filler behind the page pattern. -/
def fillerBehindPattern : Bytes := #[
  0, 0, 0, 0, 0, 0, 0, 0, 0x00, 0x40, 0xFC, 0xEA, 0, 0, 0, 0, 0, 0, 0, 0, 0, 0, 0, 0,
  0x1C, 0x00, 0xF0, 0xFF, 0, 0, 0, 0, 0, 0, 0, 0, 0, 0, 0, 0, 0, 0, 0, 0,
  0x00, 0xB0, 0x9C, 0xE5, 0xFF, 0xFF, 0xFF, 0xFF, 0xFF, 0xFF, 0xFF, 0xFF]

theorem locate_fillerBehindPattern :
    Kernel.locate fillerBehindPattern = .ok ⟨0, 0x1C, 0x1C⟩ ∧
      Arena.locate fillerBehindPattern ⟨0, 0x1C, 0x1C⟩ = .ok ⟨0x31, 0x38⟩ := by
  constructor
  · exact @Kernel.locate_of_found fillerBehindPattern 0 0x1C 0xEAFC4000 0xFFF0001C
      (by decide +kernel) (by decide +kernel) (by decide +kernel) (by decide +kernel)
  · exact Arena.locate_of_short rfl (by decide) (by decide +kernel)

/-- Of two pieces the first, of two bytes, goes to an odd position and the second to the next
multiple of four. -/
theorem placements_aligned_behind_first_odd :
    let pieces : List Piece := [⟨"a", #[1, 2]⟩, ⟨"b", #[3, 4, 5, 6]⟩]
    Arena.locate fillerBehindPattern ⟨0, 0x1C, 0x1C⟩ = .ok ⟨0x31, 0x38⟩ ∧
      positions ⟨fillerBehindPattern, 0x31, 0x38⟩ pieces = [0x31, 0x34] ∧
      (∀ pos ∈ (positions ⟨fillerBehindPattern, 0x31, 0x38⟩ pieces).tail, pos % 4 = 0) ∧
      ¬∀ pos ∈ positions ⟨fillerBehindPattern, 0x31, 0x38⟩ pieces, pos % 4 = 0 := by
  intro pieces
  have hlocate := locate_fillerBehindPattern.2
  have hpositions : positions ⟨fillerBehindPattern, 0x31, 0x38⟩ pieces = [0x31, 0x34] := by
    decide +kernel
  obtain ⟨-, -, htail, hall⟩ := placements_aligned_behind_first hlocate pieces
  refine ⟨hlocate, hpositions, htail, ?_⟩
  rw [hall, hpositions]
  decide

/-- Code for a service call goes to an odd position of a section in which the kernel and its free
space were found. -/
theorem first_placement_odd :
    Kernel.locate fillerBehindPattern = .ok ⟨0, 0x1C, 0x1C⟩ ∧
      Arena.locate fillerBehindPattern ⟨0, 0x1C, 0x1C⟩ = .ok ⟨0x31, 0x38⟩ ∧
      positions ⟨fillerBehindPattern, 0x31, 0x38⟩ [⟨"stub", #[0, 0, 0, 0]⟩] = [0x31] ∧
      0x31 % 4 ≠ 0 :=
  ⟨locate_fillerBehindPattern.1, locate_fillerBehindPattern.2, by decide +kernel, by decide⟩

end KernelImage
end BootStage
