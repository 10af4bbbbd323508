import BootStage.Proofs.EditEffects
import BootStage.Proofs.EditSafety
import BootStage.Proofs.LaidWrites
import BootStage.Proofs.LowestOccurrence
/-!
# What successful edits have written

An edit that comes to a value has laid bytes over its image, and these fitted. An edit of a range
has run on the bytes of that range alone, and the ones it left were put back there; so bytes that
are laid and then edited where they lie come to one write of the edited ones.
-/

namespace BootStage.Edit

variable {α : Type} {target : String} {pos start stop : Nat} {data image : Bytes} {edit : Edit α}
  {a : α}

/-! ## Single steps -/

theorem write_eq_ok (h : (write target pos data image).result = .ok ()) :
    (write target pos data image).state = image.overwrite pos data := by
  rw [write_apply] at h ⊢
  rcases Bytes.writeStart_cases image.size pos data.size with ⟨-, hstart⟩ | hstart
  · rw [hstart]
  · rw [hstart] at h
    cases h

theorem fits_of_write (h : (write target pos data image).result = .ok ()) :
    pos + data.size ≤ image.size := by
  have hends := (confined_write target pos data image rfl).2
  rw [h] at hends
  exact hends

theorem writeWord_eq_ok {value : UInt32} (h : (writeWord target pos value image).result = .ok ()) :
    (writeWord target pos value image).state = image.layAll [⟨pos, .ofWord value⟩] := by
  rw [Bytes.layAll_cons, Bytes.layAll_nil]
  exact write_eq_ok h

theorem locate_eq_ok {pattern : Bytes} (h : (locate target pattern image).result = .ok pos) :
    image.occurrence? pattern = some pos ∧ (locate target pattern image).state = image := by
  cases hfound : image.occurrence? pattern with
  | none =>
    rw [locate_of_none hfound] at h
    cases h
  | some found =>
    rw [locate_of_some hfound] at h ⊢
    obtain rfl := Except.ok.inj h
    exact ⟨rfl, rfl⟩

theorem fill_eq_ok {target' : String} {tag : Bytes} {value : UInt32} (htag : 0 < tag.size)
    (h : ((locate target tag >>= fun pos => writeWord target' pos value) image).result = .ok ()) :
    ∃ pos, IsLeast {place | OccursAt image tag place} pos ∧
      ((locate target tag >>= fun pos => writeWord target' pos value) image).state =
        image.overwrite pos (.ofWord value) := by
  obtain ⟨pos, hlocated, hwritten, hstate⟩ := Run.state_of_bind_ok h
  obtain ⟨hfound, hkept⟩ := locate_eq_ok hlocated
  rw [hkept] at hwritten hstate
  exact ⟨pos, (Bytes.occurrence?_eq_some_iff htag).1 hfound, hstate.trans (write_eq_ok hwritten)⟩

/-! ## Edits of a range -/

theorem within_eq_ok (h : (within start stop edit image).result = .ok a) :
    start ≤ stop ∧ stop ≤ image.size ∧ (edit (image.extract start stop)).result = .ok a ∧
      (within start stop edit image).state =
        image.overwrite start (edit (image.extract start stop)).state := by
  by_cases hrange : start ≤ stop ∧ stop ≤ image.size
  · rw [within_apply hrange.1 hrange.2] at h ⊢
    exact ⟨hrange.1, hrange.2, h, rfl⟩
  · unfold within at h
    rw [Run.bind_of_eq_ok (m := get) rfl, if_neg hrange] at h
    cases h

theorem within_of_ok {after : Bytes} (hrange : start ≤ stop) (hstop : stop ≤ image.size)
    (h : edit (image.extract start stop) = ⟨.ok a, after, []⟩) :
    within start stop edit image = ⟨.ok a, image.overwrite start after, []⟩ := by
  rw [within_apply hrange hstop]
  unfold Run.onPart
  dsimp only
  rw [h]

theorem within_laid_of_ok {after : Bytes} (hfits : pos + data.size ≤ image.size)
    (hsize : after.size = data.size) (h : edit data = ⟨.ok a, after, []⟩) :
    within pos (pos + data.size) edit (image.overwrite pos data) =
      ⟨.ok a, image.overwrite pos after, []⟩ := by
  have hstop : pos + data.size ≤ (image.overwrite pos data).size := by rwa [Bytes.size_overwrite]
  rw [← Bytes.extract_overwrite image pos data hfits] at h
  rw [within_of_ok (Nat.le_add_right _ _) hstop h, Bytes.overwrite_overwrite_same image pos hsize]

theorem within_laid_eq_ok (hfits : pos + data.size ≤ image.size)
    (hedit : Confined data.size edit fun _ => True)
    (h : (within pos (pos + data.size) edit (image.overwrite pos data)).result = .ok a) :
    (edit data).result = .ok a ∧
      (within pos (pos + data.size) edit (image.overwrite pos data)).state =
        image.overwrite pos (edit data).state := by
  obtain ⟨-, -, hok, hstate⟩ := within_eq_ok h
  rw [Bytes.extract_overwrite image pos data hfits] at hok hstate
  have hsize := (hedit data rfl).1
  rw [hstate, Bytes.overwrite_overwrite_same image pos hsize]
  exact ⟨hok, rfl⟩

end BootStage.Edit
