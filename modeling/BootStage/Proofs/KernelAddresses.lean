import BootStage.Proofs.AlignedPlacements
import BootStage.Proofs.KernelWrites
/-!
# Addresses of placed code

The kernel section is loaded one MiB below the end of the address space, so only positions in its
first MiB have an address. The processor has its vectors at `0xF0000`, well inside, but the page is
searched for in the whole section. Code that is placed at the end of that MiB is given the null
address, and code behind it one of the first pages of memory.
-/

namespace BootStage

namespace Arena

variable {pos : Nat}

theorem toNat_address_eq_mod (pos : Nat) :
    (address pos).toNat = (0xFFF00000 + pos) % 0x100000000 := by
  rw [address, UInt32.toNat_add, UInt32.toNat_ofNat']
  change (0xFFF00000 + pos % 0x100000000) % 0x100000000 = _
  omega

theorem toNat_address (h : pos < 0x100000) : (address pos).toNat = 0xFFF00000 + pos := by
  rw [toNat_address_eq_mod]
  omega

theorem toNat_address_of_far (h : 0x100000 ≤ pos) (hsize : pos ≤ 0x400000) :
    (address pos).toNat = pos - 0x100000 := by
  rw [toNat_address_eq_mod]
  omega

theorem toNat_address_iff : (address pos).toNat = 0xFFF00000 + pos ↔ pos < 0x100000 := by
  refine ⟨fun h => ?_, toNat_address⟩
  have hlt := (address pos).toNat_lt
  omega

theorem address_eq_zero_iff (hsize : pos ≤ 0x400000) : address pos = 0 ↔ pos = 0x100000 := by
  rw [← UInt32.toNat_inj, toNat_address_eq_mod]
  change _ = 0 ↔ _
  omega

end Arena

/-- What is left in a table entry that was set is the address of the code it is to lead to. -/
theorem ServiceCall.word_of_point {target : String} {kernel : Kernel} {number pos : Nat}
    {code : Bytes} (h : (point target kernel number pos code).result = .ok ()) :
    (point target kernel number pos code).state.word (kernel.slot number) = Arena.address pos := by
  have hslot : kernel.slot number + 4 ≤ code.size := Edit.fits_of_write h
  rw [point_eq_ok h, word_entryWrite hslot]

namespace KernelImage

variable {code : Bytes} {kernel : Kernel} {arena : Arena} {piece : Piece} {pos : Nat}

/-- Whatever was tried before, a piece that is placed lies in the page and in the section. -/
theorem placed_in_page (h : Arena.locate code kernel = .ok arena) {before : List Piece}
    (hpos : ((after ⟨code, arena⟩ before).placing piece).result = .ok pos) :
    kernel.page < pos ∧ pos + piece.code.size ≤ kernel.page + 0x1000 ∧
      pos + piece.code.size ≤ code.size := by
  obtain ⟨hbehind, -, hpage, hsection⟩ := Arena.locate_eq_ok h
  obtain ⟨rfl, hroom, -⟩ := placing_eq_ok hpos
  have hgrows := grows_after ⟨code, arena⟩ before
  have hnext : arena.next ≤ _ := hgrows.next
  have hstop : _ = arena.stop := hgrows.stop
  change _ ≤ kernel.page + 0x1000 at hpage
  omega

/-- The address of placed code is exact just when the code starts in the first MiB of the section.
It does where the page or the section ends there; otherwise the address wraps around, to null for
code at the end of that MiB. A table entry that is set to lead to the code has the address, wrapped
around or not. -/
theorem placed_address_exact_iff (hsize : code.size ≤ 0x400000)
    (harena : Arena.locate code kernel = .ok arena) (before : List Piece)
    (hpos : ((after ⟨code, arena⟩ before).placing piece).result = .ok pos) :
    (kernel.page < pos ∧ pos + piece.code.size ≤ kernel.page + 0x1000 ∧
        pos + piece.code.size ≤ code.size) ∧
      ((Arena.address pos).toNat = 0xFFF00000 + pos ↔ pos < 0x100000) ∧
      (kernel.page + 0x1000 ≤ 0x100000 ∨ code.size ≤ 0x100000 → 0 < piece.code.size →
        pos < 0x100000) ∧
      (0x100000 ≤ pos → (Arena.address pos).toNat = pos - 0x100000) ∧
      (Arena.address pos = 0 ↔ pos = 0x100000) ∧
      ∀ target number image, (ServiceCall.point target kernel number pos image).result = .ok () →
        (ServiceCall.point target kernel number pos image).state.word (kernel.slot number) =
          Arena.address pos := by
  have hplaced := placed_in_page harena hpos
  have hbound : pos ≤ 0x400000 := by omega
  refine ⟨hplaced, Arena.toNat_address_iff, fun hends hlong => ?_,
    fun hfar => Arena.toNat_address_of_far hfar hbound, Arena.address_eq_zero_iff hbound,
    fun _ _ _ => ServiceCall.word_of_point⟩
  omega

/-- In a section of `0x38` bytes the address is exact. -/
theorem placed_address_exact_near :
    let piece : Piece := ⟨"stub", #[0, 0, 0, 0]⟩
    fillerBehindPattern.size ≤ 0x400000 ∧
      Arena.locate fillerBehindPattern ⟨0, 0x1C, 0x1C⟩ = .ok ⟨0x31, 0x38⟩ ∧
      ((after ⟨fillerBehindPattern, 0x31, 0x38⟩ []).placing piece).result = .ok 0x31 ∧
      (Arena.address 0x31).toNat = 0xFFF00031 := by
  intro piece
  have hsize : fillerBehindPattern.size ≤ 0x400000 := by decide
  have hlocate := locate_fillerBehindPattern.2
  have hpos : ((after ⟨fillerBehindPattern, 0x31, 0x38⟩ []).placing piece).result = .ok 0x31 := by
    rw [after, List.foldl_nil, placing,
      KernelEdit.place_of_room (by decide) (by decide) (by decide)]
  refine ⟨hsize, hlocate, hpos, ?_⟩
  exact (placed_address_exact_iff hsize hlocate [] hpos).2.1.2 (by decide)

/-! ## A page at the end of the first MiB -/

/-- A null word as the handler, and in front of it its address, where the vector leads. -/
def handlerFront : Bytes :=
  Array.replicate 0x18 0 ++ #[0x1C, 0x00, 0xF0, 0xFF, 0, 0, 0, 0]

def farPage (n : Nat) : Bytes :=
  handlerFront ++ Array.replicate n 0 ++ fillerBehindPattern

theorem size_farFront (n : Nat) : (handlerFront ++ Array.replicate n 0).size = 0x20 + n := by
  rw [Array.size_append, Array.size_replicate]
  rfl

theorem size_farPage (n : Nat) : (farPage n).size = 0x20 + n + 0x38 := by
  rw [farPage, Array.size_append, size_farFront]
  rfl

theorem word_farPage {pos : Nat} (h : pos + 4 ≤ 0x20) (n : Nat) :
    (farPage n).word pos = handlerFront.word pos := by
  rw [farPage, Array.append_assoc, Bytes.word_append]
  exact h

theorem word_farPage_behind (n pos : Nat) :
    (farPage n).word (0x20 + n + pos) = fillerBehindPattern.word pos := by
  rw [farPage, ← size_farFront, Bytes.word_append_right]

theorem isLeast_farPage (n : Nat) :
    IsLeast {place | OccursAt (farPage n) Kernel.pagePattern place} (0x20 + n + 0x2C) := by
  constructor
  · have hpattern : OccursAt fillerBehindPattern Kernel.pagePattern 0x2C := by decide
    rw [← size_farFront]
    exact hpattern.append _
  · intro place hplace
    by_contra hlow
    -- The second byte of the pattern is nowhere in front of this occurrence.
    have hsecond : (farPage n)[place + 1]? = some 0xB0 := hplace.2 1 (by decide)
    by_cases hfront : place + 1 < 0x20 + n
    · rw [farPage, Array.getElem?_append_left (by rwa [size_farFront])] at hsecond
      have hmem := Array.mem_of_getElem? hsecond
      rcases Array.mem_append.1 hmem with hhandler | hnull
      · exact absurd hhandler (by decide +kernel)
      · cases (Array.mem_replicate.1 hnull).2
    · rw [farPage, Array.getElem?_append_right (by rw [size_farFront]; omega), size_farFront]
        at hsecond
      have hbefore : ∀ i < 0x2D, fillerBehindPattern[i]? ≠ some 0xB0 := by decide
      exact hbefore _ (by omega) hsecond

theorem locate_farPage (n : Nat) :
    Kernel.locate (farPage n) = .ok ⟨0x20 + n, 0x1C, 0x1C⟩ ∧
      Arena.locate (farPage n) ⟨0x20 + n, 0x1C, 0x1C⟩ =
        .ok ⟨0x20 + n + 0x31, 0x20 + n + 0x38⟩ := by
  have hsize := size_farPage n
  have hbranch : (farPage n).word (0x20 + n + 8) = 0xEAFC4000 :=
    (word_farPage_behind n 8).trans (by decide)
  have hhandler : (farPage n).word 0x18 = 0xFFF0001C :=
    (word_farPage (by decide) n).trans (by decide)
  have hnull : (farPage n).word 0x1C = 0 := (word_farPage (by decide) n).trans (by decide)
  constructor
  · apply Kernel.locate_of_laidOut
    constructor
    case page => exact isLeast_farPage n
    case backward =>
      rw [hbranch]
      decide
    case handler =>
      refine ⟨0x18, ?_, by omega, ?_⟩
      · rw [hbranch]
        decide
      · rw [hhandler]
        rfl
    case table =>
      exact ⟨0, rfl, by dsimp only; omega, hnull, fun i hi => absurd hi (Nat.not_lt_zero i)⟩
  · have hpage : (farPage n).extract (0x20 + n) (farPage n).size = fillerBehindPattern :=
      Bytes.extract_last (size_farFront n) hsize.symm
    have hfiller : Bytes.occurrence? ((farPage n).extract (0x20 + n) (farPage n).size)
        Arena.filler = some 0x30 := by
      rw [hpage]
      decide +kernel
    have hlast : (farPage n).size ≤ 0x20 + n + Kernel.pageBytes := by
      change _ ≤ 0x20 + n + 0x1000
      omega
    have hpagefits : 0x20 + n ≤ (farPage n).size := by omega
    rw [@Arena.locate_of_last _ ⟨0x20 + n, 0x1C, 0x1C⟩ _ hpagefits hlast hfiller, hsize]

/-- Where the free space starts at the end of the first MiB, the table entry that is set to lead to
the piece placed first is null. -/
theorem placing_at_end {image : KernelImage} {piece : Piece} {kernel : Kernel} {number : Nat}
    (hnext : image.arena.next = 0x100000) (hroom : 0x100000 + piece.code.size ≤ image.arena.stop)
    (hstop : image.arena.stop ≤ image.code.size)
    (hslot : kernel.slot number + 4 ≤ image.code.size) (hsize : image.code.size ≤ 0x400000)
    (target : String) :
    ∃ placed, image.placing piece = ⟨.ok 0x100000, placed, []⟩ ∧
      ∃ entered, ServiceCall.point target kernel number 0x100000 placed.code =
        ⟨.ok (), entered, []⟩ ∧ entered.word (kernel.slot number) = 0 := by
  have hlimit : image.code.size < positionLimit := Nat.lt_of_le_of_lt hsize (by decide)
  have hplaced := @KernelEdit.place_of_room image piece.target piece.code (by rwa [hnext])
    (by rw [hnext]; omega) hlimit
  rw [← Bytes.size_overwrite image.code image.arena.next piece.code] at hslot hlimit
  have hentered := @ServiceCall.point_of_fits kernel target number 0x100000 _ hslot hlimit
  have hnull : Arena.address 0x100000 = 0 := (Arena.address_eq_zero_iff (by decide)).2 rfl
  rw [hnext] at hplaced hslot hentered
  exact ⟨_, hplaced, _, hentered, by rw [ServiceCall.word_entryWrite hslot, hnull]⟩

/-- Code is placed where the address space ends, and the entry that is set to lead there is null. -/
theorem placed_at_null_address :
    let code := farPage 0xFFFAF
    let kernel : Kernel := ⟨0xFFFCF, 0x1C, 0x1C⟩
    code.size ≤ 0x400000 ∧ Kernel.locate code = .ok kernel ∧
      Arena.locate code kernel = .ok ⟨0x100000, 0x100007⟩ ∧
      0xFFFFFFFF < 0xFFF00000 + 0x100000 ∧ Arena.address 0x100000 = 0 ∧
      ∃ placed, placing ⟨code, 0x100000, 0x100007⟩ ⟨"stub", #[0, 0, 0, 0]⟩ =
          ⟨.ok 0x100000, placed, []⟩ ∧
        ∃ entered, ServiceCall.point "stub" kernel 0x2E 0x100000 placed.code =
            ⟨.ok (), entered, []⟩ ∧ entered.word (kernel.slot 0x2E) = 0 := by
  obtain ⟨hkernel, harena⟩ := locate_farPage 0xFFFAF
  have hsize : (farPage 0xFFFAF).size = 0x100007 := size_farPage 0xFFFAF
  -- A name for the section keeps its bytes from being computed.
  generalize farPage 0xFFFAF = far at hkernel harena hsize ⊢
  intro code kernel
  have hslot : kernel.slot 0x2E + 4 ≤ far.size := by
    rw [hsize]
    decide
  have hbound : far.size ≤ 0x400000 := by
    rw [hsize]
    decide
  refine ⟨hbound, hkernel, harena, by decide, (Arena.address_eq_zero_iff (by decide)).2 rfl, ?_⟩
  have hroom : 0x100000 + 4 ≤ 0x100007 := by decide
  exact @placing_at_end ⟨far, 0x100000, 0x100007⟩ ⟨"stub", #[0, 0, 0, 0]⟩ kernel 0x2E rfl hroom
    (Nat.le_of_eq hsize.symm) hslot hbound "stub"

end KernelImage
end BootStage
