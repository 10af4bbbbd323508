import BootStage.Kernel.Layout
import BootStage.Proofs.BranchDistances
import BootStage.Proofs.LowestOccurrence
/-!
# Where the kernel structures are

The branch in the vector of service calls is decoded modulo 2 ^ 26, with its sign dropped. In a
section of ordinary size this leads where the processor would go, or else outside the section.
-/

namespace BootStage

namespace Kernel

variable {code : Bytes} {accept : UInt32 → Bool} {kernel : Kernel} {page pos found : Nat}

def pointerOffset (branch : UInt32) : Int :=
  0xF0018 + Arm.distance branch

theorem pointerOffset_eq (branch : UInt32) :
    pointerOffset branch = Arm.destination branch 0xFFFF0008 + 8 - 0xFFF00000 := by
  unfold pointerOffset Arm.destination
  omega

/-- A branch that does not go forward is followed exactly, as far as the start of the section. Any
other leads to the last 2 ^ 26 bytes of the address space. -/
theorem handlerPointer_cases (branch : UInt32) :
    Arm.distance branch ≤ 0 ∧ 0 ≤ pointerOffset branch ∧
        (handlerPointer branch : Int) = pointerOffset branch ∨
      (0 < Arm.distance branch ∨ pointerOffset branch < 0) ∧
        0xFC000000 ≤ handlerPointer branch := by
  have hback := Arm.distanceBack_eq branch
  have hbound := Arm.distanceBack_lt branch
  have hreach := Arm.distance_bounds branch
  have hpointer : handlerPointer branch =
      (0x1000F0018 - (Arm.distanceBack branch).toNat) % 0x100000000 := by
    rw [handlerPointer]
    simp only [UInt32.toNat_sub, UInt32.toNat_add, vectors, base, UInt32.reduceToNat]
    omega
  unfold pointerOffset
  split at hback <;> omega

/-! ## The table -/

theorem scan_eq_some (h : scan accept code pos = some found) :
    ∃ n, found = pos + 4 * n ∧ found + 4 ≤ code.size ∧ accept (code.word found) ∧
      ∀ i < n, ¬accept (code.word (pos + 4 * i)) := by
  fun_induction scan accept code pos with
  | case1 pos hfits haccept =>
    obtain rfl := Option.some.inj h
    exact ⟨0, rfl, hfits, haccept, fun i hi => absurd hi (Nat.not_lt_zero i)⟩
  | case2 pos hfits hrefused ih =>
    obtain ⟨n, hfound, hlast, haccept, hbefore⟩ := ih h
    refine ⟨n + 1, by omega, hlast, haccept, fun i hi => ?_⟩
    cases i with
    | zero => exact hrefused
    | succ i =>
      have hnext : pos + 4 * (i + 1) = pos + 4 + 4 * i := by omega
      rw [hnext]
      exact hbefore i (Nat.lt_of_succ_lt_succ hi)
  | case3 pos hover => cases h

theorem scan_of_first {n : Nat} (hlast : pos + 4 * n + 4 ≤ code.size)
    (haccept : accept (code.word (pos + 4 * n)))
    (hbefore : ∀ i < n, ¬accept (code.word (pos + 4 * i))) :
    scan accept code pos = some (pos + 4 * n) := by
  induction n generalizing pos with
  | zero =>
    rw [Nat.mul_zero, Nat.add_zero] at hlast haccept ⊢
    rw [scan, if_pos hlast, if_pos haccept]
  | succ n ih =>
    have hnext : ∀ i, pos + 4 * (i + 1) = pos + 4 + 4 * i := fun i => by omega
    rw [hnext] at hlast haccept
    have hfirst : ¬accept (code.word pos) := hbefore 0 (Nat.succ_pos n)
    have hrest := ih hlast haccept fun i hi => hnext i ▸ hbefore (i + 1) (Nat.succ_lt_succ hi)
    rw [scan, if_pos (by omega), if_neg hfirst, hrest, hnext]

/-! ## The structures of a section -/

theorem anchor?_page_eq_some_iff :
    code.anchor? pagePattern pageBack = some page ↔
      IsLeast {place | OccursAt code pagePattern place} (page + pageBack) :=
  Bytes.anchor?_eq_some_iff (by decide)

theorem locate_of_found {table : Nat} {branch address : UInt32}
    (hpage : code.anchor? pagePattern pageBack = some page)
    (hbranch : code.word? (page + 8) = some branch)
    (haddress : code.word? (handlerPointer branch) = some address)
    (htable : scan (· == 0) code (address - base).toNat = some table) :
    locate code = .ok ⟨page, (address - base).toNat, table⟩ := by
  -- One case for each structure that may be missing, and one where all are found.
  fun_cases locate with
  | case1 _ hpage' _ hbranch' _ haddress' _ _ htable' =>
    obtain rfl := Option.some.inj (hpage'.symm.trans hpage)
    obtain rfl := Option.some.inj (hbranch'.symm.trans hbranch)
    obtain rfl := Option.some.inj (haddress'.symm.trans haddress)
    obtain rfl := Option.some.inj (htable'.symm.trans htable)
    rfl
  | case2 _ hpage' _ hbranch' _ haddress' _ hnone =>
    obtain rfl := Option.some.inj (hpage'.symm.trans hpage)
    obtain rfl := Option.some.inj (hbranch'.symm.trans hbranch)
    obtain rfl := Option.some.inj (haddress'.symm.trans haddress)
    exact absurd htable (hnone table)
  | case3 _ hpage' _ hbranch' hnone =>
    obtain rfl := Option.some.inj (hpage'.symm.trans hpage)
    obtain rfl := Option.some.inj (hbranch'.symm.trans hbranch)
    exact absurd haddress (hnone address)
  | case4 _ hpage' hnone =>
    obtain rfl := Option.some.inj (hpage'.symm.trans hpage)
    exact absurd hbranch (hnone branch)
  | case5 hnone => exact absurd hpage (hnone page)

theorem found_of_locate (h : locate code = .ok kernel) :
    ∃ branch address, code.anchor? pagePattern pageBack = some kernel.page ∧
      code.word? (kernel.page + 8) = some branch ∧
      code.word? (handlerPointer branch) = some address ∧
      kernel.handler = (address - base).toNat ∧
      scan (· == 0) code kernel.handler = some kernel.table := by
  revert h
  fun_cases locate with
  | case1 page hpage branch hbranch address haddress handler table htable =>
    intro h
    obtain rfl := Except.ok.inj h
    exact ⟨branch, address, hpage, hbranch, haddress, rfl, htable⟩
  | case2 | case3 | case4 | case5 => intro h; cases h

theorem locate_of_no_page (h : code.anchor? pagePattern pageBack = none) :
    locate code = .error (.missing target) := by
  unfold locate
  rw [h]
  rfl

/-- Of the structures only a missing page is reported as missing. -/
theorem locate_eq_error {err : PatchFailure} (h : locate code = .error err) :
    code.anchor? pagePattern pageBack = none ∧ err = .missing target ∨
      (∃ page, code.anchor? pagePattern pageBack = some page) ∧
        ∃ reason, err = .malformed target reason := by
  revert h
  fun_cases locate with
  | case1 => intro h; cases h
  | case2 page hpage | case3 page hpage | case4 page hpage =>
    intro h
    obtain rfl := Except.error.inj h
    exact .inr ⟨⟨page, hpage⟩, _, rfl⟩
  | case5 hnone =>
    intro h
    obtain rfl := Except.error.inj h
    exact .inl ⟨Option.eq_none_iff_forall_ne_some.2 hnone, rfl⟩

/-! ## The structures as the processor follows them -/

/-- The structures of `code` are where `kernel` has them. -/
structure LaidOut (code : Bytes) (kernel : Kernel) : Prop where
  /-- The page has the pattern, at its lowest occurrence. -/
  page : IsLeast {place | OccursAt code pagePattern place} (kernel.page + 0x2C)
  /-- The branch in the vector does not go forward. -/
  backward : Arm.distance (code.word (kernel.page + 8)) ≤ 0
  /-- The word that the vector leads to is the address of the handler. -/
  handler : ∃ pointer : Nat, (pointer : Int) = pointerOffset (code.word (kernel.page + 8)) ∧
    pointer + 4 ≤ code.size ∧ kernel.handler = (code.word pointer - 0xFFF00000).toNat
  /-- The table starts at the first null word from the handler on. -/
  table : ∃ n, kernel.table = kernel.handler + 4 * n ∧ kernel.table + 4 ≤ code.size ∧
    code.word kernel.table = 0 ∧ ∀ i < n, code.word (kernel.handler + 4 * i) ≠ 0

theorem laidOut_of_locate (hsize : code.size ≤ 0x400000) (h : locate code = .ok kernel) :
    LaidOut code kernel := by
  obtain ⟨branch, address, hpage, hbranch, haddress, hhandler, htable⟩ := found_of_locate h
  obtain ⟨-, rfl⟩ := Bytes.word?_eq_some_iff.1 hbranch
  obtain ⟨hpointer, rfl⟩ := Bytes.word?_eq_some_iff.1 haddress
  obtain ⟨n, hplace, hlast, hnull, hbefore⟩ := scan_eq_some htable
  rcases handlerPointer_cases (code.word (kernel.page + 8)) with
    ⟨hbackward, -, hoffset⟩ | ⟨-, hfar⟩
  · refine ⟨anchor?_page_eq_some_iff.1 hpage, hbackward, ⟨_, hoffset, hpointer, hhandler⟩, ?_⟩
    exact ⟨n, hplace, hlast, beq_iff_eq.1 hnull, fun i hi hzero => hbefore i hi (by simp [hzero])⟩
  · omega

theorem locate_of_laidOut (h : LaidOut code kernel) : locate code = .ok kernel := by
  obtain ⟨pointer, hoffset, hpointer, hhandler⟩ := h.handler
  change kernel.handler = (code.word pointer - base).toNat at hhandler
  obtain ⟨n, hplace, hlast, hnull, hbefore⟩ := h.table
  have hpage := anchor?_page_eq_some_iff.2 h.page
  have hpattern : kernel.page + 0x2C + 4 ≤ code.size := h.page.1.1
  have hbranch : code.word? (kernel.page + 8) = some (code.word (kernel.page + 8)) :=
    Bytes.word?_eq_some_iff.2 ⟨by omega, rfl⟩
  have hbackward := h.backward
  have hsame : handlerPointer (code.word (kernel.page + 8)) = pointer := by
    rcases handlerPointer_cases (code.word (kernel.page + 8)) with hnear | hfar <;> omega
  have haddress : code.word? (handlerPointer (code.word (kernel.page + 8))) =
      some (code.word pointer) := by
    rw [hsame]
    exact Bytes.word?_eq_some_iff.2 ⟨hpointer, rfl⟩
  rw [hplace] at hlast hnull
  have htable : scan (· == 0) code kernel.handler = some kernel.table := by
    rw [hplace]
    exact scan_of_first hlast (beq_iff_eq.2 hnull) fun i hi hzero =>
      hbefore i hi (beq_iff_eq.1 hzero)
  rw [hhandler] at htable
  rw [locate_of_found hpage hbranch haddress htable, ← hhandler]

/-- In a section of up to 4 MiB the structures found are those the processor follows: a page whose
vector does not branch forward, the handler the vector leads to, and the table at the first null
word behind it. Where one is not there, the failure tells whether it is the page. -/
theorem locate_follows_vector (hsize : code.size ≤ 0x400000) :
    (∀ branch, pointerOffset branch = Arm.destination branch 0xFFFF0008 + 8 - 0xFFF00000) ∧
      (∀ kernel, locate code = .ok kernel ↔ LaidOut code kernel) ∧
      (locate code = .error (.missing target) ↔
        ∀ page, ¬IsLeast {place | OccursAt code pagePattern place} (page + 0x2C)) ∧
      ∀ err, locate code = .error err →
        err = .missing target ∨ ∃ reason, err = .malformed target reason := by
  refine ⟨pointerOffset_eq, fun kernel => ⟨laidOut_of_locate hsize, locate_of_laidOut⟩, ?_, ?_⟩
  · constructor
    · intro h page hleast
      have hpage := anchor?_page_eq_some_iff.2 hleast
      rcases locate_eq_error h with ⟨hnone, -⟩ | ⟨-, reason, hreason⟩
      · rw [hpage] at hnone
        cases hnone
      · cases hreason
    · intro hnowhere
      refine locate_of_no_page (Option.eq_none_iff_forall_ne_some.2 fun page hpage => ?_)
      exact hnowhere page (anchor?_page_eq_some_iff.1 hpage)
  · intro err h
    rcases locate_eq_error h with ⟨-, hmissing⟩ | ⟨-, hmalformed⟩
    · exact .inl hmissing
    · exact .inr hmalformed

/-- The vector leads to `0x18`, and the table is preceded by one word of the handler. -/
theorem locate_follows_vector_near :
    let code : Bytes := #[0, 0, 0, 0, 0, 0, 0, 0, 0x00, 0x40, 0xFC, 0xEA,
      0, 0, 0, 0, 0, 0, 0, 0, 0, 0, 0, 0, 0x1C, 0x00, 0xF0, 0xFF, 1, 0, 0, 0,
      0, 0, 0, 0, 0, 0, 0, 0, 0, 0, 0, 0, 0x00, 0xB0, 0x9C, 0xE5]
    code.size ≤ 0x400000 ∧ LaidOut code ⟨0, 0x1C, 0x20⟩ ∧ locate code = .ok ⟨0, 0x1C, 0x20⟩ := by
  intro code
  have hsize : code.size ≤ 0x400000 := by decide
  have hlaid : LaidOut code ⟨0, 0x1C, 0x20⟩ := by
    constructor
    case page => exact (Bytes.occurrence?_eq_some_iff (by decide)).1 (by decide +kernel)
    case backward => decide +kernel
    case handler => exact ⟨0x18, by decide +kernel⟩
    case table => exact ⟨1, by decide +kernel⟩
  exact ⟨hsize, hlaid, ((locate_follows_vector hsize).2.1 _).2 hlaid⟩

/-- A pattern with no room for a page in front of it is reported like a missing one. -/
theorem locate_pattern_in_front :
    pagePattern.size ≤ 0x400000 ∧ OccursAt pagePattern pagePattern 0 ∧
      locate pagePattern = .error (.missing target) :=
  ⟨by decide, by decide, locate_of_no_page (by decide +kernel)⟩

end Kernel
end BootStage
