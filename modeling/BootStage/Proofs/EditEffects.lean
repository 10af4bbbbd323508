import BootStage.Patch.PatternPatch
import BootStage.Proofs.LaidWrites
import BootStage.Proofs.RunSafety
import BootStage.Proofs.Searching
/-!
# What single edits come to

The outcome of the steps that patches are made of, where their target is in the image and where
it is not: a search, a slice, a write, and a pattern patch that is applied once.
-/

namespace BootStage

namespace Bytes

theorem overwrite_extract_overwrite (b data : Bytes) {start stop pos : Nat} (hstop : stop ≤ b.size)
    (hfits : pos + data.size ≤ stop - start) :
    b.overwrite start (overwrite (b.extract start stop) pos data) =
      b.overwrite (start + pos) data := by
  have hinside : pos + data.size ≤ (b.extract start stop).size := by
    rw [Array.size_extract]
    omega
  rw [← overwrite_overwrite_inside b _ data hinside, overwrite_extract]

end Bytes

namespace Edit

variable {target : String} {image pattern data : Bytes} {pos start stop : Nat}

theorem locate_of_some (h : image.occurrence? pattern = some pos) :
    locate target pattern image = ⟨.ok pos, image, []⟩ := by
  unfold locate
  rw [Run.bind_of_ok (m := get) (a := image) rfl, h]
  rfl

theorem locate_of_none (h : image.occurrence? pattern = none) :
    locate target pattern image = ⟨.error (.failed (.missing target)), image, []⟩ := by
  unfold locate
  rw [Run.bind_of_ok (m := get) (a := image) rfl, h]
  rfl

theorem slice_of_le (h : start ≤ stop) (hstop : stop ≤ image.size) :
    slice start stop image = ⟨.ok (image.extract start stop), image, []⟩ := by
  unfold slice
  rw [Run.bind_of_ok (m := get) (a := image) rfl, Bytes.range?_eq_some h hstop]
  rfl

theorem searchFrom_of_le {table : SkipTable} (h : start ≤ image.size) :
    searchFrom table start image = ⟨.ok (table.search image start), image, []⟩ := by
  unfold searchFrom
  rw [Run.bind_of_ok (m := get) (a := image) rfl, if_pos h]
  rfl

theorem write_of_fits (hfits : pos + data.size ≤ image.size) (hlimit : image.size < positionLimit) :
    write target pos data image = ⟨.ok (), image.overwrite pos data, []⟩ := by
  have hstart : Bytes.writeStart image.size pos 0 data.size = .ok pos :=
    Bytes.writeStart_of_fits (by omega) hfits hlimit
  rw [write_apply, hstart]

theorem write_bind_of_fits {α : Type} (hfits : pos + data.size ≤ image.size)
    (hlimit : image.size < positionLimit) (next : Unit → Edit α) :
    (write target pos data >>= next) image = next () (image.overwrite pos data) :=
  Run.bind_of_eq_ok (write_of_fits hfits hlimit) next

end Edit

/-! ## Pattern patches that are applied once -/

theorem Bytes.replace_of_none {image pattern replacement : Bytes} {offset : Int} {limit : Nat}
    (h : image.occurrence? pattern = none) :
    image.replace pattern offset replacement limit = (.ok 0, image) := by
  unfold Bytes.replace
  unfold Bytes.occurrence? SkipTable.firstIn at h
  cases htable : SkipTable.ofPattern? pattern with
  | none => rfl
  | some table =>
    rw [htable, Option.bind_some] at h
    cases limit with
    | zero => rfl
    | succ limit =>
      dsimp only
      rw [SkipTable.replace, h]

theorem Bytes.replace_once {image pattern replacement : Bytes} {offset : Int} {found pos : Nat}
    (h : image.occurrence? pattern = some found)
    (hstart : Bytes.writeStart image.size found offset replacement.size = .ok pos) :
    image.replace pattern offset replacement 1 = (.ok 1, image.overwrite pos replacement) := by
  unfold Bytes.replace
  unfold Bytes.occurrence? SkipTable.firstIn at h
  cases htable : SkipTable.ofPattern? pattern with
  | none =>
    rw [htable] at h
    cases h
  | some table =>
    rw [htable, Option.bind_some] at h
    dsimp only
    rw [SkipTable.replace, h]
    dsimp only
    rw [hstart]
    rfl

namespace PatternPatch

variable {patch : PatternPatch} {image : Bytes}

/-- Where what it searches is a range of the image, a patch makes the writes of a replacement. -/
theorem overwriteFrom_eq {table : SkipTable} {limit count start : Nat} (h : start ≤ image.size) :
    patch.overwriteFrom table limit count start image =
      let replaced := table.replace patch.offset patch.replacement limit count start image
      ⟨replaced.1.mapError fun err => .failed (.outside patch.name err), replaced.2, []⟩ := by
  induction limit generalizing count start image with
  | zero => rfl
  | succ limit ih =>
    unfold overwriteFrom
    rw [Run.bind_of_eq_ok (Edit.searchFrom_of_le h), SkipTable.replace]
    cases hfound : table.search image start with
    | none => rfl
    | some found =>
      have hwrite := Edit.writeDisplaced_apply patch.name found patch.offset patch.replacement image
      dsimp only
      cases hpos : Bytes.writeStart image.size found patch.offset patch.replacement.size with
      | error err =>
        rw [hpos] at hwrite
        exact Run.bind_of_eq_error hwrite _
      | ok pos =>
        rw [hpos] at hwrite
        rw [Run.bind_of_eq_ok hwrite]
        refine ih ?_
        rw [Bytes.size_overwrite]
        exact (SkipTable.search_some hfound).2.1

theorem overwriteAll_eq (patch : PatternPatch) (image : Bytes) :
    patch.overwriteAll image =
      let replaced := image.replace patch.pattern patch.offset patch.replacement patch.limit
      ⟨replaced.1.mapError fun err => .failed (.outside patch.name err), replaced.2, []⟩ := by
  unfold overwriteAll Bytes.replace
  cases SkipTable.ofPattern? patch.pattern with
  | none => rfl
  | some table => exact overwriteFrom_eq (Nat.zero_le _)

theorem apply_of_replace {count : Nat} {after : Bytes}
    (h : image.replace patch.pattern patch.offset patch.replacement patch.limit =
      (.ok count, after)) :
    patch.apply image = ⟨.ok count, after, [.patternPatched patch.name count]⟩ := by
  unfold apply
  rw [Run.bind_apply, overwriteAll_eq, h]
  rfl

theorem apply_of_refused {err : WriteFailure} {after : Bytes}
    (h : image.replace patch.pattern patch.offset patch.replacement patch.limit =
      (.error err, after)) :
    patch.apply image = ⟨.error (.failed (.outside patch.name err)), after, []⟩ := by
  unfold apply
  rw [Run.bind_apply, overwriteAll_eq, h]
  rfl

theorem require_of_none (h : image.occurrence? patch.pattern = none) :
    patch.require image =
      ⟨.error (.failed (.missing patch.name)), image, [.patternPatched patch.name 0]⟩ := by
  unfold require
  rw [Run.bind_apply, apply_of_replace (Bytes.replace_of_none h)]
  rfl

theorem require_once {found pos : Nat} (hlimit : patch.limit = 1)
    (h : image.occurrence? patch.pattern = some found)
    (hstart : Bytes.writeStart image.size found patch.offset patch.replacement.size = .ok pos) :
    patch.require image =
      ⟨.ok 1, image.overwrite pos patch.replacement, [.patternPatched patch.name 1]⟩ := by
  have hreplace : image.replace patch.pattern patch.offset patch.replacement patch.limit =
      (.ok 1, image.overwrite pos patch.replacement) := by
    rw [hlimit]
    exact Bytes.replace_once h hstart
  unfold require
  rw [Run.bind_apply, apply_of_replace hreplace]
  rfl

end PatternPatch
end BootStage
