import BootStage.Patch.NandGuard
import BootStage.Patch.Process9
import BootStage.Patch.RebootHook
import BootStage.Patch.Redirect
import BootStage.Patch.Loader
import BootStage.PatchSet.Kit
import BootStage.Proofs.RunSafety
import BootStage.Proofs.Searching
/-!
# Confined edits

An edit is confined to an image of `n` bytes when it is safe there and keeps the image's size.
Every range that a patch uses comes from a search, from a write that went through or from a
check of bounds, and those ranges lie inside the image. As sizes never change, they still do
after the writes that come between.
-/

namespace BootStage

namespace Edit

variable {α β : Type} {n : Nat}

/-- The edit is safe on images of `n` bytes and keeps their size. It ends in a value with `Q` or
in a failure. -/
abbrev Confined (n : Nat) (edit : Edit α) (Q : α → Prop) : Prop :=
  Run.Safe (fun image : Bytes => image.size = n) edit Q

theorem confined_writeDisplaced (target : String) (base : Nat) (offset : Int) (data : Bytes) :
    Confined n (writeDisplaced target base offset data) fun _ =>
      0 ≤ (base : Int) + offset ∧ (base : Int) + offset + data.size ≤ n := by
  intro image hsize
  rw [writeDisplaced_apply]
  cases hstart : Bytes.writeStart image.size base offset data.size with
  | ok start =>
    obtain ⟨hsum, hfits⟩ := Bytes.writeStart_eq_ok hstart
    have hkept : (image.overwrite start data).size = n := by
      rw [Bytes.size_overwrite, hsize]
    rw [hsize] at hfits
    exact ⟨hkept, by omega, by omega⟩
  | error err => exact ⟨hsize, True.intro⟩

theorem confined_write (target : String) (pos : Nat) (data : Bytes) :
    Confined n (write target pos data) fun _ => pos + data.size ≤ n :=
  (confined_writeDisplaced target pos 0 data).mono fun _ h => by omega

theorem confined_writeHalf (target : String) (pos : Nat) (value : UInt16) :
    Confined n (writeHalf target pos value) fun _ => pos + 2 ≤ n :=
  confined_write target pos (.ofHalf value)

theorem confined_writeWord (target : String) (pos : Nat) (value : UInt32) :
    Confined n (writeWord target pos value) fun _ => pos + 4 ≤ n :=
  confined_write target pos (.ofWord value)

theorem confined_locate (target : String) (pattern : Bytes) :
    Confined n (locate target pattern) fun pos => pos + pattern.size ≤ n := by
  refine Run.Ensures.get.bind fun image hsize => .orFail fun pos hpos => ?_
  rw [← hsize]
  exact Bytes.occurrence?_fits hpos

theorem confined_fill (target target' : String) (tag : Bytes) (value : UInt32) :
    Confined n (locate target tag >>= fun pos => writeWord target' pos value) fun _ => True :=
  (confined_locate _ _).bind fun pos _ => (confined_writeWord _ pos value).forget

theorem safe_slice {I : Bytes → Prop} {start stop : Nat} (h : start ≤ stop)
    (hstop : ∀ image, I image → stop ≤ image.size) :
    Run.Safe I (slice start stop) fun part => part.size = stop - start := by
  apply Run.Ensures.get.bind
  intro image himage
  have hrange := Bytes.range?_eq_some h (hstop image himage)
  rw [hrange]
  exact .pure (Bytes.range?_some hrange).2.2

theorem confined_searchFrom (table : SkipTable) {start : Nat} (h : start ≤ n) :
    Confined n (searchFrom table start) fun found =>
      ∀ pos, found = some pos → pos + table.pattern.size ≤ n := by
  refine Run.Ensures.get.bind fun image hsize => .ite (fun _ => ?_) fun hout => ?_
  · refine .pure fun pos hpos => ?_
    rw [← hsize]
    exact (SkipTable.search_some hpos).2.1
  · exact absurd (hsize.symm ▸ h) hout

theorem confined_slice {start stop : Nat} (h : start ≤ stop) (hstop : stop ≤ n) :
    Confined n (slice start stop) fun part => part.size = stop - start :=
  safe_slice h fun _ hsize => hsize.symm ▸ hstop

theorem within_apply {start stop : Nat} {edit : Edit α} {image : Bytes} (h : start ≤ stop)
    (hstop : stop ≤ image.size) :
    within start stop edit image =
      Run.onPart (·.extract start stop) (·.overwrite start) edit image := by
  change (if start ≤ stop ∧ stop ≤ image.size then
    Run.onPart (·.extract start stop) (·.overwrite start) edit
      else Run.outOfRange : Edit α) image = _
  rw [if_pos ⟨h, hstop⟩]

theorem safe_within {I : Bytes → Prop} {start stop : Nat} {edit : Edit α} {Q : α → Prop}
    (h : start ≤ stop) (hstop : ∀ image, I image → stop ≤ image.size)
    (hedit : Confined (stop - start) edit Q)
    (hback : ∀ image part, I image → part.size = stop - start → I (image.overwrite start part)) :
    Run.Safe I (within start stop edit) Q := by
  refine Run.Ensures.get.bind fun image himage => .ite (fun _ => ?_) fun hout => ?_
  · refine hedit.onPart (fun whole hwhole => ?_) hback
    have hfits := hstop whole hwhole
    rw [Array.size_extract]
    omega
  · exact absurd ⟨h, hstop image himage⟩ hout

theorem safe_within_reading {I : Bytes → Prop} {start stop : Nat} {edit : Edit α} {Q : α → Prop}
    (h : start ≤ stop) (hstop : ∀ image, I image → stop ≤ image.size)
    (hedit : ∀ part : Bytes, Run.Safe (· = part) edit Q) :
    Run.Safe I (within start stop edit) Q := by
  intro image himage
  -- The rule for edits would need `I` kept for any part that is put back, so unfold the run.
  obtain ⟨hkept, hends⟩ := hedit (image.extract start stop) _ rfl
  rw [within_apply h (hstop image himage)]
  refine ⟨?_, hends⟩
  change I (image.overwrite start (edit (image.extract start stop)).state)
  rw [hkept, Bytes.overwrite_extract image start stop]
  exact himage

theorem confined_within {start stop : Nat} {edit : Edit α} {Q : α → Prop} (h : start ≤ stop)
    (hstop : stop ≤ n) (hedit : Confined (stop - start) edit Q) :
    Confined n (within start stop edit) Q := by
  refine safe_within h (fun image hsize => hsize.symm ▸ hstop) hedit fun image part hsize _ => ?_
  rw [Bytes.size_overwrite, hsize]

end Edit

/-! ## Pattern patches -/

namespace PatternPatch

variable {n : Nat}

/-- An occurrence ends inside the image, so what is left to search is a range of it. -/
theorem confined_overwriteFrom (patch : PatternPatch) (table : SkipTable)
    {limit count start : Nat} (h : start ≤ n) :
    Edit.Confined n (patch.overwriteFrom table limit count start) fun _ => True := by
  induction limit generalizing count start with
  | zero => exact .pure True.intro
  | succ limit ih =>
    refine (Edit.confined_searchFrom table h).bind fun found hfits => ?_
    cases found with
    | none => exact .pure True.intro
    | some pos => exact (Edit.confined_writeDisplaced _ _ _ _).bind fun _ _ => ih (hfits pos rfl)

theorem confined_overwriteAll (patch : PatternPatch) :
    Edit.Confined n patch.overwriteAll fun _ => True := by
  unfold overwriteAll
  cases SkipTable.ofPattern? patch.pattern with
  | none => exact .pure True.intro
  | some table => exact patch.confined_overwriteFrom table (Nat.zero_le n)

theorem confined_apply (patch : PatternPatch) : Edit.Confined n patch.apply fun _ => True :=
  patch.confined_overwriteAll.bind fun _ _ => Run.Ensures.emit.bind fun _ _ => .pure True.intro

theorem confined_require (patch : PatternPatch) : Edit.Confined n patch.require fun _ => True :=
  patch.confined_apply.bind fun _ _ => .ite (fun _ => .throw) fun _ => .pure True.intro

end PatternPatch

theorem PatchKit.confined_swapUnitType {n : Nat} (kit : PatchKit) :
    Edit.Confined n kit.swapUnitType fun _ => True :=
  .ite (fun _ => kit.unitTypePatch.confined_require.bind fun _ _ => .pure True.intro)
    fun _ => .pure True.intro

/-! ## Process9 -/

namespace Process9

variable {n : Nat}

theorem ofModule_fits {size header : Nat} {m : Module} {p : Process9}
    (h : ofModule size header m = .ok p) : p.stop ≤ size := by
  unfold ofModule at h
  split at h
  · cases h
  · dsimp only at h
    split at h
    · next hfits =>
      obtain rfl := Except.ok.inj h
      exact hfits
    · cases h

theorem start_le_stop (p : Process9) : p.start ≤ p.stop :=
  Nat.le_add_right _ _

theorem confined_locate : Edit.Confined n locate fun p => p.stop ≤ n := by
  apply Run.Ensures.get.bind
  intro arm9 hsize
  refine (Run.Ensures.orFail (Q := fun found => found ≤ n) fun found hfound => ?_).bind
    fun found hfits => ?_
  · -- The code is searched for its title, which lies past its header.
    have hocc := (Bytes.occurrenceFrom?_some hfound).2.1
    omega
  refine .guarded (a := ()) (fun _ => .throw) fun _ => ?_
  rw [hsize]
  apply (Edit.confined_slice (by omega) (Nat.le_refl n)).bind
  intro part _
  cases Module.parse part with
  | error err => exact .throw
  | ok m => exact .ofExcept fun p hp => ofModule_fits hp

theorem confined_onCode {α : Type} {Q : α → Prop} {p : Process9} {edit : Edit α}
    (hstop : p.stop ≤ n) (hedit : ∀ size, Edit.Confined size edit Q) :
    Edit.Confined n (p.onCode edit) Q :=
  Edit.confined_within p.start_le_stop hstop (hedit _)

end Process9

/-! ## Patches of the ARM9 binary -/

/-- The window that is searched for the check ends at the service name. -/
theorem NandGuard.confined_block {n : Nat} : Edit.Confined n block fun _ => True := by
  apply (Edit.confined_locate target serviceName).bind
  intro service hservice
  apply (Edit.confined_slice (by omega) (by omega)).bind
  intro window _
  apply Run.Ensures.orFail_any.bind
  intro found _
  exact (Edit.confined_write target _ refusal).bind fun _ _ => .emit

/-- The placeholder is looked for in the hook as it was copied, so the copy has to have gone
through. -/
theorem RebootHook.confined_install {n : Nat} (address : UInt32) (hook : Bytes) :
    Edit.Confined n (install address hook) fun _ => True := by
  apply Run.Ensures.get.bind
  intro _ _
  apply Run.Ensures.orFail_any.bind
  intro pos _
  apply Run.Ensures.get.bind
  intro _ _
  apply Run.Ensures.orFail_any.bind
  intro instr _
  apply (Edit.confined_write target pos hook).bind
  intro _ hfits
  exact (Edit.confined_within (by omega) hfits (Edit.confined_fill _ _ _ _)).bind fun _ _ => .emit

namespace Redirect

variable {n : Nat}

theorem confined_readController {p9 : Process9} (hstop : p9.stop ≤ n) :
    Edit.Confined n (readController p9) fun _ => True :=
  p9.confined_onCode hstop fun _ =>
    Run.Ensures.get.bind fun _ _ => .ofExcept_any

theorem confined_fill (placeholder : Placeholder) (value : UInt32) :
    Edit.Confined n (fill placeholder value) fun _ => True :=
  Edit.confined_fill _ _ placeholder.tag value

theorem confined_detour (site : Nat) (routine : UInt32) :
    Edit.Confined n (detour site routine) fun _ => True :=
  (Edit.confined_writeHalf _ site _).bind fun _ _ =>
    (Edit.confined_writeHalf _ (site + 2) _).bind fun _ _ =>
      (Edit.confined_writeWord _ (site + 4) routine).forget

theorem confined_detourAccessors (routine : UInt32) :
    Edit.Confined n (detourAccessors routine) fun _ => True :=
  Run.Ensures.get.bind fun _ _ =>
    Run.Ensures.orFail_any.bind fun sites _ =>
      (confined_detour sites.1 routine).bind fun _ _ => confined_detour sites.2 routine

theorem confined_openRegions : Edit.Confined n openRegions fun _ => True :=
  (Edit.confined_locate _ _).bind fun table _ =>
    (Edit.confined_writeWord _ table _).bind fun _ _ =>
      (Edit.confined_writeWord _ (table + 4 * 6) _).bind fun _ _ =>
        (Edit.confined_writeWord _ (table + 4 * 9) _).forget

/-- The placeholders are filled in the routine as it was copied. -/
theorem confined_install (address : UInt32) {start stop : Nat} (routine : Bytes)
    (location : ImageLocation) (controller : UInt32) (hrange : start ≤ stop) (hstop : stop ≤ n) :
    Edit.Confined n (install address start stop routine location controller) fun _ => True := by
  apply Run.Ensures.get.bind
  intro _ _
  apply Run.Ensures.orFail_any.bind
  intro found _
  apply (Edit.confined_write _ (found + paddingToCavity) routine).bind
  intro _ hfits
  have hfill : ∀ size, Edit.Confined size
      (do
        fill .redirect location.redirect
        fill .header location.header
        fill .controller controller) fun _ => True := fun _ =>
    (confined_fill _ _).bind fun _ _ => (confined_fill _ _).bind fun _ _ => confined_fill _ _
  apply (Edit.confined_within (by omega) hfits (hfill _)).bind
  intro _ _
  apply (Edit.confined_within hrange hstop (confined_detourAccessors _)).bind
  intro _ _
  exact confined_openRegions.bind fun _ _ => .emit

theorem confined_installAround (address : UInt32) {p9 : Process9} (routine : Bytes)
    (location : ImageLocation) {checks : Edit Unit} (hstop : p9.stop ≤ n)
    (hchecks : Edit.Confined n checks fun _ => True) :
    Edit.Confined n (installAround address p9 routine location checks) fun _ => True :=
  (confined_readController hstop).bind fun controller _ =>
    hchecks.bind fun _ _ =>
      confined_install address routine location controller p9.start_le_stop hstop

end Redirect

/-! ## The loader replacement -/

namespace Loader

/-- The walk reads from positions inside the section only, and changes nothing. -/
theorem safe_locate (modules : Bytes) (pos : Nat) :
    Run.Safe (· = modules) (locate modules.size pos) fun _ => True := by
  -- By induction on what is left to walk: a module that is passed has a content.
  induction hleft : modules.size - pos using Nat.strongRecOn generalizing pos with
  | ind left ih =>
    rw [locate]
    refine .ite (fun _ => .throw) fun hinside => ?_
    refine (Edit.safe_slice (by omega) fun image himage => ?_).bind fun rest _ => ?_
    · exact Nat.le_of_eq (congrArg Array.size himage.symm)
    cases Module.parse rest with
    | error err => exact .throw
    | ok m =>
      refine .ite (fun _ => .throw) fun hlength => ?_
      refine .ite (fun _ => .pure True.intro) fun _ => ?_
      exact ih _ (by omega) _ rfl

theorem safe_replace (injector modules : Bytes) :
    Run.Safe (· = modules) (replace injector) fun _ => True := by
  apply Run.Ensures.get.bind
  intro _ hsame
  subst hsame
  apply (safe_locate _ 0).bind
  intro found _
  refine .guarded (a := ()) (fun _ => .throw) fun _ => ?_
  exact Run.Ensures.ofExcept_any.bind
    fun _ _ => .pure True.intro

end Loader
end BootStage
