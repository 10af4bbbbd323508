import BootStage.Kernel.Arena
import BootStage.Proofs.RunSafety
import BootStage.Proofs.Searching
/-!
# Placing code in the exception page

However many pieces of whatever length are placed, and whichever of them find no room, the free
space is handed out front to back: no two pieces meet, none is written over later, and nothing
outside the free space changes.
-/

namespace BootStage

structure Piece where
  target : String
  code : Bytes
  deriving DecidableEq, Repr

namespace Arena

theorem le_aligned (n : Nat) : n ≤ aligned n := by
  unfold aligned
  omega

theorem aligned_mod (n : Nat) : aligned n % 4 = 0 := by
  unfold aligned
  omega

/-- Free space starts behind its page, and ends with its page or with the section. -/
theorem locate_eq_ok {code : Bytes} {kernel : Kernel} {arena : Arena}
    (h : locate code kernel = .ok arena) :
    kernel.page < arena.next ∧ arena.next + 4 ≤ arena.stop ∧
      arena.stop ≤ kernel.page + Kernel.pageBytes ∧ arena.stop ≤ code.size := by
  unfold locate at h
  dsimp only at h
  split at h
  · next found hfound =>
    obtain rfl := Except.ok.inj h
    obtain ⟨page, hpage, hfiller⟩ := Option.bind_eq_some_iff.1 hfound
    obtain ⟨hstart, -, hsize⟩ := Bytes.range?_some hpage
    have hfits : found + 5 ≤ page.size := Bytes.occurrence?_fits hfiller
    dsimp only
    omega
  · cases h

theorem locate_of_last {code : Bytes} {kernel : Kernel} {found : Nat}
    (hpage : kernel.page ≤ code.size) (hsize : code.size ≤ kernel.page + Kernel.pageBytes)
    (hfound : Bytes.occurrence? (code.extract kernel.page code.size) filler = some found) :
    locate code kernel = .ok ⟨kernel.page + found + 1, code.size⟩ := by
  have hstop : min (kernel.page + Kernel.pageBytes) code.size = code.size := by omega
  unfold locate
  dsimp only
  rw [hstop, Bytes.range?_eq_some hpage (Nat.le_refl _), Option.bind_some, hfound]

theorem locate_of_short {code : Bytes} {kernel : Kernel} {found : Nat}
    (hpage : kernel.page = 0) (hsize : code.size ≤ Kernel.pageBytes)
    (hfound : code.occurrence? filler = some found) :
    locate code kernel = .ok ⟨found + 1, code.size⟩ := by
  have hall : code.extract kernel.page code.size = code := by rw [hpage, Array.extract_size]
  rw [← hall] at hfound
  rw [locate_of_last (by omega) (by omega) hfound, hpage, Nat.zero_add]

end Arena

namespace KernelImage

variable {image : KernelImage} {piece : Piece} {pieces : List Piece}

def placing (image : KernelImage) (piece : Piece) :
    Outcome Notice PatchFailure KernelImage Nat :=
  KernelEdit.place piece.target piece.code image

/-- The section and its free space once all the pieces were tried in turn. -/
def after (image : KernelImage) (pieces : List Piece) : KernelImage :=
  pieces.foldl (fun image piece => (image.placing piece).state) image

def IsFree (image : KernelImage) (i : Nat) : Prop :=
  image.arena.next ≤ i ∧ i < image.arena.stop

/-- A piece that has no room leaves everything as it is. One that has goes to the next free bytes,
and the free space goes on behind it. -/
theorem placing_cases (image : KernelImage) (piece : Piece) :
    (∃ err, image.placing piece = ⟨.error (.failed err), image, []⟩) ∨
      image.arena.next + piece.code.size ≤ image.arena.stop ∧
        image.arena.next + piece.code.size ≤ image.code.size ∧
        image.placing piece =
          ⟨.ok image.arena.next,
            { code := image.code.overwrite image.arena.next piece.code
              arena := { image.arena with
                next := Arena.aligned (image.arena.next + piece.code.size) } }, []⟩ := by
  have hplace : image.placing piece =
      (if image.arena.next + piece.code.size ≤ image.arena.stop then
        (KernelEdit.onCode (Edit.write piece.target image.arena.next piece.code) >>= fun _ =>
          (modify fun image' => { image' with arena := { image.arena with
            next := Arena.aligned (image.arena.next + piece.code.size) } }) >>= fun _ =>
              pure image.arena.next : KernelEdit Nat)
      else throw (.malformed piece.target "no room in the exception page")) image := rfl
  rw [hplace]
  by_cases hroom : image.arena.next + piece.code.size ≤ image.arena.stop
  · rw [if_pos hroom]
    have hwrite : KernelEdit.onCode (Edit.write piece.target image.arena.next piece.code) image =
        ⟨(Edit.write piece.target image.arena.next piece.code image.code).result,
          { image with
            code := (Edit.write piece.target image.arena.next piece.code image.code).state },
          (Edit.write piece.target image.arena.next piece.code image.code).events⟩ := rfl
    rw [Edit.write_apply] at hwrite
    rcases Bytes.writeStart_cases image.code.size image.arena.next piece.code.size with
      ⟨hfits, hstart⟩ | hstart
    · rw [hstart] at hwrite
      exact .inr ⟨hroom, hfits, Run.bind_of_eq_ok hwrite _⟩
    · rw [hstart] at hwrite
      exact .inl ⟨_, Run.bind_of_eq_error hwrite _⟩
  · rw [if_neg hroom]
    exact .inl ⟨_, rfl⟩

/-! ## What placements keep -/

/-- What holds of `image` and of any image `later` that placements lead to. -/
structure Grows (image later : KernelImage) : Prop where
  size : later.code.size = image.code.size
  stop : later.arena.stop = image.arena.stop
  next : image.arena.next ≤ later.arena.next
  aligned : image.arena.next % 4 = 0 → later.arena.next % 4 = 0
  kept : ∀ i, ¬image.IsFree i → later.code[i]? = image.code[i]?

theorem Grows.refl (image : KernelImage) : image.Grows image :=
  ⟨rfl, rfl, Nat.le_refl _, id, fun _ _ => rfl⟩

theorem Grows.trans {later last : KernelImage} (h : image.Grows later) (h' : later.Grows last) :
    image.Grows last where
  size := h'.size.trans h.size
  stop := h'.stop.trans h.stop
  next := Nat.le_trans h.next h'.next
  aligned haligned := h'.aligned (h.aligned haligned)
  kept i hi := by
    have hstop := h.stop
    have hnext := h.next
    have hlater : ¬later.IsFree i := by
      unfold IsFree at hi ⊢
      omega
    exact (h'.kept i hlater).trans (h.kept i hi)

theorem grows_placing (image : KernelImage) (piece : Piece) :
    image.Grows (image.placing piece).state := by
  rcases image.placing_cases piece with ⟨err, hfailed⟩ | ⟨hroom, -, hplaced⟩
  · rw [hfailed]
    exact .refl image
  · rw [hplaced]
    have hnext := Arena.le_aligned (image.arena.next + piece.code.size)
    constructor
    case size => exact Bytes.size_overwrite _ _ _
    case stop => rfl
    case next => exact Nat.le_trans (Nat.le_add_right _ _) hnext
    case aligned => exact fun _ => Arena.aligned_mod _
    case kept =>
      intro i hi
      unfold IsFree at hi
      rw [Bytes.getElem?_overwrite, if_neg (by omega)]

theorem grows_after (image : KernelImage) (pieces : List Piece) :
    image.Grows (image.after pieces) := by
  induction pieces generalizing image with
  | nil => exact .refl image
  | cons piece rest ih => exact (image.grows_placing piece).trans (ih _)

theorem after_append (image : KernelImage) (pieces rest : List Piece) :
    image.after (pieces ++ rest) = (image.after pieces).after rest :=
  List.foldl_append

/-- A placed piece lies in what was free, and starts what is free no longer. -/
theorem placing_eq_ok {pos : Nat} (h : (image.placing piece).result = .ok pos) :
    pos = image.arena.next ∧ pos + piece.code.size ≤ image.arena.stop ∧
      pos + piece.code.size ≤ (image.placing piece).state.arena.next ∧
      (image.placing piece).state.arena.next % 4 = 0 ∧
      (image.placing piece).state.code.window pos piece.code.size = piece.code := by
  rcases image.placing_cases piece with ⟨err, hfailed⟩ | ⟨hroom, hfits, hplaced⟩
  · rw [hfailed] at h
    cases h
  · rw [hplaced] at h ⊢
    obtain rfl := Except.ok.inj h
    exact ⟨rfl, hroom, Arena.le_aligned _, Arena.aligned_mod _,
      Bytes.extract_overwrite _ _ _ hfits⟩

/-- Pieces that were tried later leave a placed one intact, and go behind it. -/
theorem kept_of_placing {pos : Nat} (h : (image.placing piece).result = .ok pos)
    (later : List Piece) :
    pos + piece.code.size ≤ ((image.placing piece).state.after later).arena.next ∧
      ((image.placing piece).state.after later).arena.next % 4 = 0 ∧
      ((image.placing piece).state.after later).code.window pos piece.code.size = piece.code := by
  obtain ⟨-, -, hbehind, haligned, hcode⟩ := placing_eq_ok h
  have hgrows := (image.placing piece).state.grows_after later
  refine ⟨Nat.le_trans hbehind hgrows.next, hgrows.aligned haligned, ?_⟩
  have hkept : ∀ i, pos ≤ i → i < pos + piece.code.size →
      ((image.placing piece).state.after later).code[i]? =
        (image.placing piece).state.code[i]? := by
    intro i _ hstop
    refine hgrows.kept i ?_
    unfold IsFree
    omega
  rw [Bytes.window_congr hkept, hcode]

/-! ## Sequences of placements -/

/-- How the free space of `image` is handed out to pieces that are tried in turn. -/
structure HandsOut (image : KernelImage) (pieces : List Piece) : Prop where
  size : (image.after pieces).code.size = image.code.size
  /-- Nothing outside the free space changes. -/
  outside : ∀ i, ¬image.IsFree i → (image.after pieces).code[i]? = image.code[i]?
  /-- A placed piece lies in the free space, and is there in the end. -/
  placed : ∀ before piece later pos, pieces = before ++ piece :: later →
    ((image.after before).placing piece).result = .ok pos →
      image.arena.next ≤ pos ∧ pos + piece.code.size ≤ image.arena.stop ∧
        (image.after pieces).code.window pos piece.code.size = piece.code
  /-- A piece that is not placed has failed, and has left the section and its free space alone. -/
  refused : ∀ before piece later stop, pieces = before ++ piece :: later →
    ((image.after before).placing piece).result = .error stop →
      (∃ err, stop = .failed err) ∧ ((image.after before).placing piece).state = image.after before
  /-- Of two placed pieces the later lies behind the earlier, at a multiple of four. -/
  apart : ∀ before lower between upper later pos pos',
    pieces = before ++ lower :: (between ++ upper :: later) →
    ((image.after before).placing lower).result = .ok pos →
    ((image.after (before ++ lower :: between)).placing upper).result = .ok pos' →
      pos + lower.code.size ≤ pos' ∧ pos' % 4 = 0

theorem after_cons (image : KernelImage) (before : List Piece) (piece : Piece)
    (later : List Piece) :
    image.after (before ++ piece :: later) =
      ((image.after before).placing piece).state.after later :=
  image.after_append before (piece :: later)

theorem handsOut (image : KernelImage) (pieces : List Piece) : image.HandsOut pieces where
  size := (image.grows_after pieces).size
  outside := (image.grows_after pieces).kept
  placed := by
    rintro before piece later pos rfl hpos
    obtain ⟨rfl, hstop, -⟩ := placing_eq_ok hpos
    have hgrows := image.grows_after before
    rw [hgrows.stop] at hstop
    rw [after_cons]
    exact ⟨hgrows.next, hstop, (kept_of_placing hpos later).2.2⟩
  refused := by
    rintro before piece later stop rfl hstop
    rcases (image.after before).placing_cases piece with ⟨err, hfailed⟩ | ⟨-, -, hplaced⟩
    · rw [hfailed] at hstop ⊢
      exact ⟨⟨err, (Except.error.inj hstop).symm⟩, rfl⟩
    · rw [hplaced] at hstop
      cases hstop
  apart := by
    rintro before lower between upper later pos pos' rfl hpos hpos'
    rw [after_cons] at hpos'
    obtain ⟨rfl, -⟩ := placing_eq_ok hpos'
    have hkept := kept_of_placing hpos between
    exact ⟨hkept.1, hkept.2.1⟩

/-- Whatever pieces are tried on a section with the free space that was found in it, the space lies
in the exception page and in the section, and is handed out front to back. -/
theorem free_space_handed_out {code : Bytes} {kernel : Kernel} {arena : Arena}
    (h : Arena.locate code kernel = .ok arena) (pieces : List Piece) :
    arena.stop ≤ kernel.page + 0x1000 ∧ arena.stop ≤ code.size ∧
      HandsOut ⟨code, arena⟩ pieces := by
  obtain ⟨-, -, hpage, hsection⟩ := Arena.locate_eq_ok h
  exact ⟨hpage, hsection, handsOut ⟨code, arena⟩ pieces⟩

/-- The piece of three bytes goes to an odd position, the next three bytes have no room left, and
the piece of no bytes goes to the next multiple of four. -/
theorem free_space_handed_out_refusal :
    let code : Bytes := #[1, 2, 3, 4, 0xFF, 0xFF, 0xFF, 0xFF, 0xFF, 0]
    let pieces := [⟨"a", #[5, 6, 7]⟩, ⟨"b", #[8, 9, 10]⟩, ⟨"c", #[]⟩]
    Arena.locate code ⟨0, 0, 0⟩ = .ok ⟨5, 10⟩ ∧ HandsOut ⟨code, 5, 10⟩ pieces ∧
      after ⟨code, 5, 10⟩ pieces = ⟨#[1, 2, 3, 4, 0xFF, 5, 6, 7, 0xFF, 0], 8, 10⟩ := by
  intro code pieces
  have hfound : (code.range? 0 10).bind (·.occurrence? Arena.filler) = some 4 := by
    decide +kernel
  have hlocate : Arena.locate code ⟨0, 0, 0⟩ = .ok ⟨5, 10⟩ := by
    have hstop : min (0 + Kernel.pageBytes) code.size = 10 := rfl
    simp only [Arena.locate, hstop, hfound]
  exact ⟨hlocate, (free_space_handed_out hlocate pieces).2.2, by decide +kernel⟩

end KernelImage
end BootStage
