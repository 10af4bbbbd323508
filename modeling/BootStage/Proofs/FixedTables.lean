import BootStage.Patch.FixedPatch
import BootStage.Proofs.EditEffects
/-!
# What a table of patches writes

A patch writes the span it declares, all of it or nothing. A table whose patches all fit leaves at
each position what the last patch over it has there; any other stops at the first that does not fit.
-/

namespace BootStage

namespace Payload

def byteAt : Payload → Nat → UInt8
  | block bytes, k => bytes.byte k
  | half value, k => if k = 0 then value.toUInt8 else (value >>> 8).toUInt8
  | halfZeroTail value, k =>
    if k = 0 then value.toUInt8 else if k = 1 then (value >>> 8).toUInt8 else 0

theorem getElem?_ofHalf (value : UInt16) {k : Nat} (hk : k < 2) :
    (Bytes.ofHalf value)[k]? =
      some (if k = 0 then value.toUInt8 else (value >>> 8).toUInt8) := by
  have hhigh : UInt8.ofNat (value.toNat / 0x100) = (value >>> 8).toUInt8 := by
    apply UInt8.toNat_inj.1
    simp [Nat.shiftRight_eq_div_pow]
  obtain rfl | rfl : k = 0 ∨ k = 1 := by omega
  · rfl
  · exact congrArg some hhigh

theorem getElem?_bytes (payload : Payload) {k : Nat} (hk : k < payload.size) :
    payload.bytes[k]? = some (payload.byteAt k) := by
  cases payload with
  | block bytes =>
    change k < bytes.size at hk
    change bytes[k]? = some (bytes[k]?.getD 0)
    rw [Array.getElem?_eq_getElem hk, Option.getD_some]
  | half value => exact getElem?_ofHalf value hk
  | halfZeroTail value =>
    change k < 4 at hk
    change (Bytes.ofHalf value ++ #[0, 0])[k]? = some
      (if k = 0 then value.toUInt8 else if k = 1 then (value >>> 8).toUInt8 else 0)
    have hsize := Bytes.size_ofHalf value
    by_cases hhalf : k < 2
    · rw [Array.getElem?_append_left (by omega), getElem?_ofHalf value hhalf]
      by_cases hlow : k = 0
      · rw [if_pos hlow, if_pos hlow]
      · rw [if_neg hlow, if_neg hlow, if_pos (by omega)]
    · rw [Array.getElem?_append_right (by omega), hsize, if_neg (by omega), if_neg (by omega)]
      obtain rfl | rfl : k = 2 ∨ k = 3 := by omega
      all_goals rfl

end Payload

namespace FixedPatch

variable {patch : FixedPatch} {model : Model} {image : Bytes} {pos : Nat} {data : Bytes}

def Covers (patch : FixedPatch) (model : Model) (i : Nat) : Prop :=
  patch.positionOn model ≤ i ∧ i < patch.positionOn model + patch.payload.size

instance (patch : FixedPatch) (model : Model) (i : Nat) : Decidable (patch.Covers model i) :=
  inferInstanceAs (Decidable (_ ∧ _))

def Fits (patch : FixedPatch) (model : Model) (size : Nat) : Prop :=
  patch.positionOn model + patch.payload.size ≤ size

instance (patch : FixedPatch) (model : Model) (size : Nat) : Decidable (patch.Fits model size) :=
  inferInstanceAs (Decidable (_ ≤ _))

def asWrite (patch : FixedPatch) (model : Model) : Write :=
  ⟨patch.positionOn model, patch.payload.bytes⟩

theorem covers_asWrite (patch : FixedPatch) (model : Model) (i : Nat) :
    (patch.asWrite model).Covers i ↔ patch.Covers model i := by
  rw [asWrite, Write.covers_mk, patch.payload.size_bytes, Covers]

/-! ## Single patches -/

theorem lay_of_fits (hfits : pos + data.size ≤ image.size)
    (hlimit : pos + data.size < positionLimit) :
    lay image pos data = (.ok (), image.overwrite pos data) := by
  rw [lay, Bytes.writeStart_eq_ok_iff.2 ⟨(Int.add_zero _).symm, hfits, hlimit⟩]

theorem lay_of_not_fits (h : image.size < pos + data.size) :
    lay image pos data = (.error ⟨pos, 0, data.size, image.size⟩, image) := by
  rcases Bytes.writeStart_cases image.size pos data.size with ⟨hfits, -⟩ | hstart
  · omega
  · rw [lay, hstart]

/-- A half-word and the zeros behind it, checked together, come to one write of four bytes. -/
theorem lay_halfZeroTail (image : Bytes) (pos : Nat) (value : UInt16) :
    (match Bytes.writeStart image.size pos 0 4 with
      | .error err => (.error err, image)
      | .ok _ =>
        match lay image pos (.ofHalf value) with
        | (.error err, image) => (.error err, image)
        | (.ok (), image) => lay image (pos + 2) #[0, 0]) =
      lay image pos (Bytes.ofHalf value ++ #[0, 0]) := by
  have hsize : (Bytes.ofHalf value ++ #[0, 0]).size = 4 := rfl
  have hhalf := Bytes.size_ofHalf value
  have htail : (#[0, 0] : Bytes).size = 2 := rfl
  rw [lay.eq_def image pos (Bytes.ofHalf value ++ #[0, 0]), hsize]
  rcases Bytes.writeStart_cases image.size pos 4 with ⟨-, hstart⟩ | hstart
  · obtain ⟨-, hfits, hlimit⟩ := Bytes.writeStart_eq_ok_iff.1 hstart
    rw [hstart]
    dsimp only
    rw [lay_of_fits (by omega) (by omega)]
    dsimp only
    rw [lay_of_fits (by rw [Bytes.size_overwrite]; omega) (by omega), ← hhalf,
      Bytes.overwrite_append]
  · rw [hstart]

/-- Whatever the steps of a patch, they come to one write of all its bytes. -/
theorem apply_eq (patch : FixedPatch) (model : Model) (image : Bytes) :
    patch.apply model image = lay image (patch.positionOn model) patch.payload.bytes := by
  unfold apply
  dsimp only
  split
  · next bytes hpayload => rw [hpayload]; rfl
  · next value hpayload => rw [hpayload]; rfl
  · next value hpayload =>
    rw [hpayload]
    exact lay_halfZeroTail image _ value

theorem apply_of_fits (hfits : patch.Fits model image.size) (hlimit : image.size < positionLimit) :
    patch.apply model image =
      (.ok (), image.overwrite (patch.positionOn model) patch.payload.bytes) := by
  unfold Fits at hfits
  rw [← patch.payload.size_bytes] at hfits
  rw [apply_eq, lay_of_fits hfits (Nat.lt_of_le_of_lt hfits hlimit)]

theorem apply_of_not_fits (h : ¬patch.Fits model image.size) :
    patch.apply model image =
      (.error ⟨patch.positionOn model, 0, patch.payload.size, image.size⟩, image) := by
  unfold Fits at h
  rw [← patch.payload.size_bytes] at h
  rw [apply_eq, lay_of_not_fits (Nat.not_le.1 h), patch.payload.size_bytes]

theorem apply_eq_error {err : WriteFailure} (h : (patch.apply model image).1 = .error err) :
    (patch.apply model image).2 = image := by
  rw [apply_eq, lay] at h ⊢
  split at h
  · cases h
  · rfl

/-! ## Tables -/

def lastOver (model : Model) (i : Nat) (patches : List FixedPatch) : Option FixedPatch :=
  patches.reverse.find? fun patch => patch.Covers model i

theorem lastOver_eq_some {i : Nat} {patches : List FixedPatch}
    (h : lastOver model i patches = some patch) :
    ∃ before later, patches = before ++ patch :: later ∧ patch.Covers model i ∧
      ∀ next ∈ later, ¬next.Covers model i := by
  obtain ⟨hcovers, later, before, hsplit, hlater⟩ := List.find?_eq_some_iff_append.1 h
  refine ⟨before.reverse, later.reverse, ?_, of_decide_eq_true hcovers, fun next hnext => ?_⟩
  · rw [← List.reverse_reverse patches, hsplit, List.reverse_append, List.reverse_cons,
      List.append_assoc, List.singleton_append]
  · simpa using hlater next (List.mem_reverse.1 hnext)

theorem lastOver_eq_none {i : Nat} {patches : List FixedPatch}
    (h : lastOver model i patches = none) (hpatch : patch ∈ patches) : ¬patch.Covers model i := by
  simpa using List.find?_eq_none.1 h patch (List.mem_reverse.2 hpatch)

theorem applyAll_append {before : List FixedPatch} (rest : List FixedPatch)
    (hfits : ∀ patch ∈ before, patch.Fits model image.size) (hlimit : image.size < positionLimit) :
    applyAll model (before ++ rest) image =
      applyAll model rest (image.layAll (before.map (·.asWrite model))) := by
  induction before generalizing image with
  | nil => rfl
  | cons patch before ih =>
    obtain ⟨hfirst, hbefore⟩ := List.forall_mem_cons.1 hfits
    rw [List.cons_append, applyAll, apply_of_fits hfirst hlimit]
    exact ih (by rwa [Bytes.size_overwrite]) (by rwa [Bytes.size_overwrite])

theorem applyAll_of_fits {patches : List FixedPatch}
    (hfits : ∀ patch ∈ patches, patch.Fits model image.size) (hlimit : image.size < positionLimit) :
    applyAll model patches image =
      (.ok (), image.layAll (patches.map (·.asWrite model))) := by
  have hall := applyAll_append [] hfits hlimit
  rwa [List.append_nil] at hall

theorem applyAll_of_not_fits {before : List FixedPatch} (later : List FixedPatch)
    (hfits : ∀ patch ∈ before, patch.Fits model image.size) (hpatch : ¬patch.Fits model image.size)
    (hlimit : image.size < positionLimit) :
    applyAll model (before ++ patch :: later) image =
      (.error ⟨patch.positionOn model, 0, patch.payload.size, image.size⟩,
        (applyAll model before image).2) := by
  rw [applyAll_append _ hfits hlimit, applyAll_of_fits hfits hlimit, applyAll]
  rw [← Bytes.size_layAll image (before.map (·.asWrite model))] at hpatch
  rw [apply_of_not_fits hpatch, Bytes.size_layAll]

/-- A byte after writes of patches that fit is that of the last patch over it. -/
theorem getElem?_written {patches : List FixedPatch}
    (hfits : ∀ patch ∈ patches, patch.Fits model image.size) (i : Nat) :
    (image.layAll (patches.map (·.asWrite model)))[i]? =
      match lastOver model i patches with
      | some patch => some (patch.payload.byteAt (i - patch.positionOn model))
      | none => image[i]? := by
  cases hlast : lastOver model i patches with
  | none =>
    refine Bytes.getElem?_layAll_of_clear (List.forall_mem_map.2 fun patch hpatch => ?_)
    rw [covers_asWrite]
    exact lastOver_eq_none hlast hpatch
  | some patch =>
    obtain ⟨before, later, rfl, hcovers, hlater⟩ := lastOver_eq_some hlast
    have hfitting := hfits patch (List.mem_append_right before List.mem_cons_self)
    unfold Fits at hfitting
    have hin : i < image.size := Nat.lt_of_lt_of_le hcovers.2 hfitting
    have hrest : ∀ next ∈ later.map (·.asWrite model), ¬next.Covers i :=
      List.forall_mem_map.2 fun next hnext => by
        rw [covers_asWrite]
        exact hlater next hnext
    rw [List.map_append, List.map_cons,
      Bytes.getElem?_layAll_of_last ((patch.covers_asWrite model i).2 hcovers) hin hrest]
    obtain ⟨hstart, hstop⟩ := hcovers
    have hinside : i - patch.positionOn model < patch.payload.size := by omega
    exact patch.payload.getElem?_bytes hinside

theorem exists_first_misfit {patches : List FixedPatch} {size : Nat}
    (h : ¬∀ patch ∈ patches, patch.Fits model size) :
    ∃ before patch later, patches = before ++ patch :: later ∧
      (∀ first ∈ before, first.Fits model size) ∧ ¬patch.Fits model size := by
  cases hfirst : patches.find? fun patch => ¬patch.Fits model size with
  | none =>
    refine absurd (fun patch hpatch => ?_) h
    simpa using List.find?_eq_none.1 hfirst patch hpatch
  | some patch =>
    obtain ⟨hpatch, before, later, hsplit, hbefore⟩ := List.find?_eq_some_iff_append.1 hfirst
    exact ⟨before, patch, later, hsplit, by simpa using hbefore, of_decide_eq_true hpatch⟩

/-- A table succeeds just where all its patches end inside the image, and then each byte is the one
that the last patch over it has there, or the old one under none. Any other table fails with its
first patch that does not fit, and leaves the image as the patches before that one do. -/
theorem applyAll_writes_spans (model : Model) (patches : List FixedPatch) {image : Bytes}
    (hlimit : image.size < positionLimit) :
    ((applyAll model patches image).1 = .ok () ↔
      ∀ patch ∈ patches, patch.positionOn model + patch.payload.size ≤ image.size) ∧
    ((applyAll model patches image).1 = .ok () →
      ∀ i, (applyAll model patches image).2[i]? =
        match lastOver model i patches with
        | some patch => some (patch.payload.byteAt (i - patch.positionOn model))
        | none => image[i]?) ∧
    (∀ err, (applyAll model patches image).1 = .error err →
      ∃ before patch later, patches = before ++ patch :: later ∧
        (∀ first ∈ before, first.Fits model image.size) ∧ ¬patch.Fits model image.size ∧
        err = ⟨patch.positionOn model, 0, patch.payload.size, image.size⟩ ∧
        (applyAll model before image).1 = .ok () ∧
        (applyAll model patches image).2 = (applyAll model before image).2) ∧
    ∀ (patch : FixedPatch) err, (patch.apply model image).1 = .error err →
      (patch.apply model image).2 = image := by
  by_cases hfits : ∀ patch ∈ patches, patch.Fits model image.size
  · rw [applyAll_of_fits hfits hlimit]
    exact ⟨iff_of_true rfl hfits, fun _ => getElem?_written hfits, nofun,
      fun patch err => apply_eq_error⟩
  · obtain ⟨before, patch, later, rfl, hbefore, hpatch⟩ := exists_first_misfit hfits
    have hfails := applyAll_of_not_fits later hbefore hpatch hlimit
    have hdone := congrArg Prod.fst (applyAll_of_fits hbefore hlimit)
    rw [hfails]
    refine ⟨iff_of_false nofun hfits, nofun, fun err herr => ?_, fun patch err => apply_eq_error⟩
    exact ⟨before, patch, later, rfl, hbefore, hpatch, (Except.error.inj herr).symm, hdone, rfl⟩

/-- The half-word with the zero tail lies over the end of the block, and the last one over the end
of the tail. -/
theorem applyAll_writes_spans_overlapping :
    let table : List FixedPatch :=
      [⟨0, 1, .block #[1, 2, 3]⟩, ⟨2, 3, .halfZeroTail 0x2001⟩, ⟨4, 5, .half 0xEF26⟩]
    let image : Bytes := #[0xFF, 0xFF, 0xFF, 0xFF, 0xFF, 0xFF, 0xFF]
    image.size < positionLimit ∧
      (∀ patch ∈ table, patch.positionOn .old + patch.payload.size ≤ image.size) ∧
      (applyAll .old table image).1 = .ok () ∧
      (applyAll .old table image).2 = #[1, 2, 1, 0x20, 0x26, 0xEF, 0xFF] := by
  intro table image
  have hlimit : image.size < positionLimit := by decide
  have hfits : ∀ patch ∈ table, patch.positionOn .old + patch.payload.size ≤ image.size := by
    decide
  have hdone := (applyAll_writes_spans .old table hlimit).1.2 hfits
  exact ⟨hlimit, hfits, hdone, by decide +kernel⟩

/-- A tail that does not fit keeps its half-word from being written. -/
example : applyAll .old [⟨0, 0, .half 0x1111⟩, ⟨3, 3, .halfZeroTail 0x2001⟩] #[0, 0, 0, 0, 0, 0] =
    (.error ⟨3, 0, 4, 6⟩, #[0x11, 0x11, 0, 0, 0, 0]) :=
  rfl

end FixedPatch
end BootStage
