import BootStage.Proofs.BranchDistances
import BootStage.Proofs.EditWrites
/-!
# The file-open function of the reboot hook

The hook is told where the call goes that it is copied over. A call that does not go forward is
followed as the processor follows it; of one that goes forward the sign is lost, and the hook gets
an address 2 ^ 26 too low.
-/

namespace BootStage.RebootHook

variable {address : UInt32} {hook before : Bytes}

theorem toNat_openAddress (instr : UInt32) (pos : Nat) (address : UInt32) :
    ((openAddress instr pos address).toNat : Int) =
      (address.toNat + Arm.destination instr pos + 1 -
        (if 0 < Arm.distance instr then 0x4000000 else 0)) % 0x100000000 := by
  have hback := Arm.distanceBack_eq instr
  have hbound := Arm.distanceBack_lt instr
  have hsum : (openAddress instr pos address).toNat =
      ((0x100000000 - (Arm.distanceBack instr).toNat + (pos % 0x100000000 + 9) % 0x100000000) %
        0x100000000 + address.toNat) % 0x100000000 := by
    simp [openAddress, UInt32.toNat_sub]
  unfold Arm.destination
  rw [hsum]
  -- Of the instruction only its two distances matter from here on.
  generalize (Arm.distanceBack instr).toNat = back at hback hbound ⊢
  generalize Arm.distance instr = distance at hback ⊢
  omega

/-! ## What installing the hook comes to -/

/-- `after` is `before` with the hook over the relaunch routine at `pos`, and the address `opener`
over its placeholder at `word`. -/
structure Hooked (hook : Bytes) (pos word : Nat) (opener : UInt32) (before after : Bytes) :
    Prop where
  place : IsLeast {place | OccursAt before pattern place} (pos + 0x13)
  placeholder : IsLeast {place | OccursAt hook placeholder place} word
  fits : pos + hook.size ≤ before.size
  after : after = before.overwrite pos (hook.overwrite word (.ofWord opener))

theorem install_eq_ok (h : (install address hook before).result = .ok ()) :
    ∃ pos word, Hooked hook pos word (openAddress (before.word pos) pos address) before
      (install address hook before).state := by
  unfold install at h ⊢
  rw [Run.bind_of_eq_ok (m := get) rfl] at h ⊢
  obtain ⟨pos, hpos, h, hstate⟩ := Run.state_of_bind_ok h
  rw [hstate]
  rw [Run.state_orFail, Run.bind_of_eq_ok (m := get) rfl] at h ⊢
  obtain ⟨instr, hinstr, h, hstate⟩ := Run.state_of_bind_ok h
  rw [hstate]
  rw [Run.state_orFail] at h ⊢
  obtain ⟨-, rfl⟩ := Bytes.word?_eq_some_iff.1 (Run.orFail_eq_ok hinstr)
  obtain ⟨⟨⟩, hcopied, h, hstate⟩ := Run.state_of_bind_ok h
  rw [hstate]
  rw [Edit.write_eq_ok hcopied] at h ⊢
  obtain ⟨⟨⟩, hfilled, -, hstate⟩ := Run.state_of_bind_ok h
  rw [hstate, Run.state_emit]
  have hplace := (Bytes.anchor?_eq_some_iff (by decide)).1 (Run.orFail_eq_ok hpos)
  have hfits := Edit.fits_of_write hcopied
  obtain ⟨hfill, hlaid⟩ :=
    Edit.within_laid_eq_ok hfits (Edit.confined_fill _ _ _ _) hfilled
  obtain ⟨word, hword, hstate⟩ := Edit.fill_eq_ok (by decide) hfill
  rw [hlaid, hstate]
  exact ⟨pos, word, hplace, hword, hfits, rfl⟩

/-- Where the hook is installed, nothing but the bytes under it changes, and its first placeholder
holds the Thumb address that the call under it went to. Only a call that goes forward it takes for
one from 2 ^ 26 further back. -/
theorem install_follows_call (h : (install address hook before).result = .ok ()) :
    ∃ pos word opener, Hooked hook pos word opener before (install address hook before).state ∧
      (Arm.distance (before.word pos) ≤ 0 → (opener.toNat : Int) =
        (address.toNat + Arm.destination (before.word pos) pos + 1) % 0x100000000) ∧
      (0 < Arm.distance (before.word pos) → (opener.toNat : Int) =
        (address.toNat + Arm.destination (before.word pos) pos + 1 - 0x4000000) %
          0x100000000) := by
  obtain ⟨pos, word, hhooked⟩ := install_eq_ok h
  have hopener := toNat_openAddress (before.word pos) pos address
  refine ⟨pos, word, _, hhooked, fun hbackward => ?_, fun hforward => ?_⟩
  · rw [hopener, if_neg (Int.not_lt.2 hbackward), Int.sub_zero]
  · rw [hopener, if_pos hforward]

/-- A call that goes 64 bytes back, the distance of the installed firmware. -/
theorem install_follows_call_backward :
    let code : Bytes := #[0xF0, 0xFF, 0xFF, 0xFA] ++ Array.replicate 15 0 ++ pattern
    (install 0x100000 placeholder code).result = .ok () ∧
      Hooked placeholder 0 0 0xFFFC9 code (install 0x100000 placeholder code).state := by
  intro code
  have hinstalled : (install 0x100000 placeholder code).result = .ok () := by decide +kernel
  obtain ⟨pos, word, opener, hhooked, hbackward, -⟩ := install_follows_call hinstalled
  have hplace : IsLeast {place | OccursAt code pattern place} 0x13 :=
    (Bytes.occurrence?_eq_some_iff (by decide)).1 (by decide +kernel)
  have hword : IsLeast {place | OccursAt placeholder placeholder place} 0 :=
    (Bytes.occurrence?_eq_some_iff (by decide)).1 (by decide +kernel)
  obtain rfl : pos = 0 := by
    have hsame := hhooked.place.unique hplace
    omega
  obtain rfl := hhooked.placeholder.unique hword
  obtain rfl : opener = 0xFFFC9 := by
    have hopener := hbackward (by decide +kernel)
    have hdestination : Arm.destination (code.word 0) (0 : Nat) = -0x38 := by decide +kernel
    have haddress : (0x100000 : UInt32).toNat = 0x100000 := rfl
    have hwanted : (0xFFFC9 : UInt32).toNat = 0xFFFC9 := rfl
    rw [hdestination] at hopener
    exact UInt32.toNat_inj.1 (by omega)
  exact ⟨hinstalled, hhooked⟩

/-- A call forward to `0x10`, in code at `0x100000`: the Thumb address it goes to is `0x100011`. -/
theorem install_misses_forward_call :
    let code : Bytes := #[0x02, 0x00, 0x00, 0xFA] ++ Array.replicate 15 0 ++ pattern
    (install 0x100000 placeholder code).result = .ok () ∧
      IsLeast {place | OccursAt code pattern place} 0x13 ∧
      (code.word 0).toNat / 0x1000000 = 0xFA ∧ Arm.destination (code.word 0) 0 = 0x10 ∧
      (install 0x100000 placeholder code).state = code.overwrite 0 (.ofWord 0xFC100011) ∧
      (install 0x100000 placeholder code).state ≠ code.overwrite 0 (.ofWord 0x100011) := by
  intro code
  have hplace : IsLeast {place | OccursAt code pattern place} 0x13 :=
    (Bytes.occurrence?_eq_some_iff (by decide)).1 (by decide +kernel)
  exact ⟨by decide +kernel, hplace, by decide +kernel⟩

end BootStage.RebootHook
