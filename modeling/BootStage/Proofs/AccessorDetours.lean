import BootStage.Patch.Redirect
import BootStage.Proofs.EditWrites
/-!
# The detours of the NAND accessors

The calls of the read and of the write routine are found by a pattern behind each, the second one
in a window behind the first. Both get the same eight bytes. The window allows the second call to
start inside the first, whose word is then written over.
-/

namespace BootStage.Redirect

variable {code : Bytes} {routine : UInt32} {site read write : Nat}

/-! ## The calls -/

/-- The read routine calls the controller at `read`, and the write routine at `write`. -/
structure AccessorsAt (code : Bytes) (read write : Nat) : Prop where
  lowest : IsLeast {place | OccursAt code accessorPattern place} (read + 6)
  behind : IsLeast {place | read + 10 ≤ place ∧ place + 4 ≤ read + 10 + 0x100 ∧
    OccursAt code accessorPattern place} (write + 6)

theorem AccessorsAt.fits (h : AccessorsAt code read write) :
    read + 4 ≤ write ∧ write + 10 ≤ code.size := by
  obtain ⟨hbehind, -, hoccurs⟩ := h.behind.1
  have hfits : write + 6 + 4 ≤ code.size := hoccurs.1
  omega

theorem AccessorsAt.unique {read' write' : Nat} (h : AccessorsAt code read write)
    (h' : AccessorsAt code read' write') : read' = read ∧ write' = write := by
  obtain rfl : read' = read := by
    have hread := h'.lowest.unique h.lowest
    omega
  have hwrite := h'.behind.unique h.behind
  exact ⟨rfl, by omega⟩

/-- Behind the lowest place of the pattern, the next is looked for in a window. -/
theorem accessorSites?_of_lowest
    (h : IsLeast {place | OccursAt code accessorPattern place} (read + 6)) :
    accessorSites? code =
      (Bytes.occurrence? (code.extract (read + 10) (min (read + 10 + 0x100) code.size))
        accessorPattern).map fun found => (read, read + 10 + found - 6) := by
  have hstart : read + 10 ≤ code.size := h.1.1
  have hsite : code.anchor? accessorPattern accessorBack = some read :=
    (Bytes.anchor?_eq_some_iff (by decide)).2 h
  have hwindow : code.range? (read + 10) (min (read + 10 + 0x100) code.size) =
      some (code.extract (read + 10) (min (read + 10 + 0x100) code.size)) :=
    Bytes.range?_eq_some (by omega) (Nat.min_le_right _ _)
  calc accessorSites? code
      = (code.range? (read + 10) (min (read + 10 + 0x100) code.size)).bind fun window =>
          (window.occurrence? accessorPattern).bind fun found =>
            some (read, read + 10 + found - 6) := by
        unfold accessorSites?
        rw [hsite]
        rfl
    _ = _ := by rw [hwindow, Option.bind_some, Option.map_eq_bind]; rfl

theorem accessorSites?_eq_some_iff :
    accessorSites? code = some (read, write) ↔ AccessorsAt code read write := by
  constructor
  · intro h
    obtain ⟨site, hsite, hrest⟩ := Option.bind_eq_some_iff.1 h
    have hlowest := (Bytes.anchor?_eq_some_iff (by decide)).1 hsite
    have hstart : site + 10 ≤ code.size := hlowest.1.1
    rw [accessorSites?_of_lowest hlowest] at h
    obtain ⟨found, hfound, hsites⟩ := Option.map_eq_some_iff.1 h
    obtain ⟨rfl, rfl⟩ := Prod.mk.inj hsites
    have hleast := (Bytes.isLeast_window_iff hstart).1
      ((Bytes.occurrence?_eq_some_iff (by decide)).1 hfound)
    have hback : site + 10 + found - 6 + 6 = site + 10 + found := by omega
    refine ⟨hlowest, ?_⟩
    rw [hback]
    exact hleast
  · intro h
    obtain ⟨hnext, -⟩ := h.fits
    have hstart : read + 10 ≤ code.size := h.lowest.1.1
    have hplace : write + 6 = read + 10 + (write - (read + 4)) := by omega
    have hleast := h.behind
    rw [hplace] at hleast
    have hwindow : IsLeast {place | OccursAt (code.extract (read + 10)
        (min (read + 10 + 0x100) code.size)) accessorPattern place} (write - (read + 4)) :=
      (Bytes.isLeast_window_iff hstart).2 hleast
    have hfound := (Bytes.occurrence?_eq_some_iff (by decide)).2 hwindow
    rw [accessorSites?_of_lowest h.lowest, hfound, Option.map_some, ← hplace, Nat.add_sub_cancel]

/-! ## The writes -/

/-- `ldr r4, [pc, #0]` and `blx r4` -/
def stubCode : Bytes :=
  #[0x00, 0x4C, 0xA0, 0x47]

/-- Loads the word behind the two instructions and calls what it holds. -/
def stub (routine : UInt32) : Bytes :=
  stubCode ++ Bytes.ofWord routine

@[simp] theorem size_stub (routine : UInt32) : (stub routine).size = 8 :=
  rfl

theorem overwrite_stub (code : Bytes) (site : Nat) (routine : UInt32) :
    ((code.overwrite site (.ofHalf loadTarget)).overwrite (site + 2)
      (.ofHalf callTarget)).overwrite (site + 4) (.ofWord routine) =
        code.overwrite site (stub routine) := by
  have hcall := Bytes.overwrite_append code (.ofHalf loadTarget) (.ofHalf callTarget) site
  have hword := Bytes.overwrite_append code (.ofHalf loadTarget ++ .ofHalf callTarget)
    (.ofWord routine) site
  exact (congrArg (Bytes.overwrite · (site + 4) (.ofWord routine)) hcall).trans hword

theorem detour_eq_ok (h : (detour site routine code).result = .ok ()) :
    (detour site routine code).state = code.overwrite site (stub routine) := by
  unfold detour Edit.writeHalf Edit.writeWord at h ⊢
  obtain ⟨⟨⟩, hload, h, hstate⟩ := Run.state_of_bind_ok h
  rw [hstate]
  rw [Edit.write_eq_ok hload] at h ⊢
  obtain ⟨⟨⟩, hcall, h, hstate⟩ := Run.state_of_bind_ok h
  rw [hstate]
  rw [Edit.write_eq_ok hcall] at h ⊢
  rw [← overwrite_stub]
  exact Edit.write_eq_ok h

theorem detour_of_fits (hfits : site + 8 ≤ code.size) (hlimit : code.size < positionLimit) :
    detour site routine code = ⟨.ok (), code.overwrite site (stub routine), []⟩ := by
  unfold detour Edit.writeHalf Edit.writeWord
  rw [Edit.write_bind_of_fits, Edit.write_bind_of_fits, Edit.write_of_fits, overwrite_stub]
  all_goals simp [hlimit]
  all_goals omega

def accessorWrites (routine : UInt32) (read write : Nat) : List Write :=
  [⟨read, stub routine⟩, ⟨write, stub routine⟩]

theorem detourAccessors_eq_ok (h : (detourAccessors routine code).result = .ok ()) :
    ∃ read write, AccessorsAt code read write ∧
      (detourAccessors routine code).state = code.layAll (accessorWrites routine read write) := by
  unfold detourAccessors at h ⊢
  rw [Run.bind_of_eq_ok (m := get) rfl] at h ⊢
  obtain ⟨⟨read, write⟩, hsites, h, hstate⟩ := Run.state_of_bind_ok h
  rw [hstate]
  rw [Run.state_orFail] at h ⊢
  obtain ⟨⟨⟩, hread, hwrite, hstate⟩ := Run.state_of_bind_ok h
  rw [detour_eq_ok hread] at hwrite hstate
  rw [hstate, detour_eq_ok hwrite, ← Bytes.layAll_pair]
  exact ⟨read, write, accessorSites?_eq_some_iff.1 (Run.orFail_eq_ok hsites), rfl⟩

/-- Where the calls are found nothing can fail, as the pattern stands behind both. -/
theorem detourAccessors_of_sites (h : AccessorsAt code read write)
    (hlimit : code.size < positionLimit) :
    detourAccessors routine code =
      ⟨.ok (), code.layAll (accessorWrites routine read write), []⟩ := by
  obtain ⟨hnext, hfits⟩ := h.fits
  unfold detourAccessors
  rw [Run.bind_of_eq_ok (m := get) rfl, accessorSites?_eq_some_iff.2 h, accessorWrites,
    Bytes.layAll_pair]
  change (detour read routine >>= fun _ => detour write routine) code = _
  rw [Run.bind_of_eq_ok (detour_of_fits (by omega) hlimit), detour_of_fits]
  all_goals simp [hlimit]
  omega

theorem detourAccessors_of_none (h : accessorSites? code = none) :
    detourAccessors routine code = ⟨.error (.failed (.missing accessors)), code, []⟩ := by
  unfold detourAccessors
  rw [Run.bind_of_eq_ok (m := get) rfl, h]
  rfl

/-! ## Both routines call -/

/-- The two routines of `before`, which call the controller at `read` and at `write`, call
`routine` instead. -/
structure Detoured (routine : UInt32) (read write : Nat) (before after : Bytes) : Prop where
  size : after.size = before.size
  kept : ∀ i, i < read ∨ read + 8 ≤ i → i < write ∨ write + 8 ≤ i → after[i]? = before[i]?
  code : OccursAt after stubCode read
  /-- The address that the read routine calls is there unless the second call starts in it. -/
  first : read + 8 ≤ write → OccursAt after (stub routine) read
  second : OccursAt after (stub routine) write

theorem detoured_of_laid {after : Bytes} (h : AccessorsAt code read write)
    (hafter : after = code.layAll (accessorWrites routine read write)) :
    Detoured routine read write code after := by
  obtain ⟨hnext, hfits⟩ := h.fits
  rw [accessorWrites, Bytes.layAll_pair] at hafter
  have hread : OccursAt (code.overwrite read (stub routine)) (stub routine) read :=
    Bytes.occursAt_overwrite code _ (by rw [size_stub]; omega)
  constructor
  case size => rw [hafter, Bytes.size_overwrite, Bytes.size_overwrite]
  case kept =>
    intro i hfirst hsecond
    rw [hafter, Bytes.getElem?_overwrite, Bytes.getElem?_overwrite, size_stub, if_neg (by omega),
      if_neg (by omega)]
  case code => exact hafter ▸ hread.of_append.overwrite (.inl hnext)
  case first => exact fun hapart => hafter ▸ hread.overwrite (.inl hapart)
  case second =>
    rw [hafter]
    exact Bytes.occursAt_overwrite _ _ (by rw [Bytes.size_overwrite, size_stub]; omega)

/-- Both calls are found and made to call the routine, or nothing is done. Of the first one only
the instructions stay where the second starts in its address. -/
theorem detourAccessors_redirects (code : Bytes) (routine : UInt32)
    (hlimit : code.size < positionLimit) :
    (∀ stop, (detourAccessors routine code).result = .error stop →
        (detourAccessors routine code).state = code) ∧
      ((detourAccessors routine code).result = .ok () → ∃ read write, AccessorsAt code read write ∧
        Detoured routine read write code (detourAccessors routine code).state) := by
  constructor
  · intro stop hstop
    cases hsites : accessorSites? code with
    | none => rw [detourAccessors_of_none hsites]
    | some sites =>
      rw [detourAccessors_of_sites (accessorSites?_eq_some_iff.1 hsites) hlimit] at hstop
      cases hstop
  · intro hdone
    obtain ⟨read, write, hsites, hlaid⟩ := detourAccessors_eq_ok hdone
    exact ⟨read, write, hsites, detoured_of_laid hsites hlaid⟩

/-- The second call starts right behind the first, so both are whole. -/
theorem detourAccessors_redirects_adjacent :
    let code : Bytes := Array.replicate 6 0 ++ accessorPattern ++ Array.replicate 4 0 ++
      accessorPattern
    code.size < positionLimit ∧ AccessorsAt code 0 8 ∧
      (detourAccessors 0x0801AC55 code).result = .ok () ∧
      OccursAt (detourAccessors 0x0801AC55 code).state (stub 0x0801AC55) 0 ∧
      OccursAt (detourAccessors 0x0801AC55 code).state (stub 0x0801AC55) 8 := by
  intro code
  have hlimit : code.size < positionLimit := by decide
  have hsites : accessorSites? code = some (0, 8) := by decide +kernel
  have hdone : (detourAccessors 0x0801AC55 code).result = .ok () := by decide +kernel
  obtain ⟨read, write, hfound, hdetoured⟩ :=
    (detourAccessors_redirects code 0x0801AC55 hlimit).2 hdone
  obtain ⟨rfl, rfl⟩ := Prod.mk.inj
    (Option.some.inj ((accessorSites?_eq_some_iff.2 hfound).symm.trans hsites))
  exact ⟨hlimit, hfound, hdone, hdetoured.first (by decide), hdetoured.second⟩

/-- The patterns join, and the second call starts in the address of the first. -/
theorem detourAccessors_overlapping :
    let code : Bytes := Array.replicate 6 0 ++ accessorPattern ++ accessorPattern
    AccessorsAt code 0 4 ∧ (detourAccessors 0x0801AC55 code).result = .ok () ∧
      ¬OccursAt (detourAccessors 0x0801AC55 code).state (stub 0x0801AC55) 0 := by
  intro code
  exact ⟨accessorSites?_eq_some_iff.1 (by decide +kernel), by decide +kernel⟩

end BootStage.Redirect
