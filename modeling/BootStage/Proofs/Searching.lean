import BootStage.Bytes.Search
/-!
# What a search finds

A position that a search gives is one where the whole pattern stands, at or after the position
the search began at. So a found pattern always lies inside the image.
-/

namespace BootStage

namespace SkipTable

theorem search_some {table : SkipTable} {hay : Bytes} {pos found : Nat}
    (h : table.search hay pos = some found) :
    pos ≤ found ∧ OccursAt hay table.pattern found := by
  induction hleft : hay.size - pos using Nat.strongRecOn generalizing pos with
  | ind left ih =>
    rw [search_eq] at h
    split at h
    · next hfits =>
      split at h
      · next hocc =>
        obtain rfl := Option.some.inj h
        exact ⟨Nat.le_refl _, hocc⟩
      · -- The window slides by at least one byte, and there is one left to slide over.
        have hskip := table.skipAt_pos hay pos
        have hpattern := table.size_pos
        have hrest := ih _ (by omega) h rfl
        exact ⟨by omega, hrest.2⟩
    · cases h

end SkipTable

theorem OccursAt.append {hay pattern : Bytes} {pos : Nat} (h : OccursAt hay pattern pos)
    (front : Bytes) : OccursAt (front ++ hay) pattern (front.size + pos) := by
  obtain ⟨hfits, hsame⟩ := h
  refine ⟨by rw [Array.size_append]; omega, fun i hi => ?_⟩
  rw [Array.getElem?_append_right (by omega), ← hsame i hi]
  congr 1
  omega

theorem OccursAt.append_right {hay pattern : Bytes} {pos : Nat} (h : OccursAt hay pattern pos)
    (rest : Bytes) : OccursAt (hay ++ rest) pattern pos := by
  obtain ⟨hfits, hsame⟩ := h
  refine ⟨by rw [Array.size_append]; omega, fun i hi => ?_⟩
  rw [Array.getElem?_append_left (by omega), hsame i hi]

namespace Bytes

theorem occurrenceFrom?_some {hay pattern : Bytes} {start found : Nat}
    (h : hay.occurrenceFrom? pattern start = some found) :
    start ≤ found ∧ OccursAt hay pattern found := by
  unfold occurrenceFrom? SkipTable.ofPattern? at h
  split at h
  · exact SkipTable.search_some h
  · cases h

theorem occurrence?_some {hay pattern : Bytes} {found : Nat}
    (h : hay.occurrence? pattern = some found) : OccursAt hay pattern found := by
  have hfrom : hay.occurrenceFrom? pattern 0 = some found := h
  exact (occurrenceFrom?_some hfrom).2

theorem occurrence?_fits {hay pattern : Bytes} {found : Nat}
    (h : hay.occurrence? pattern = some found) : found + pattern.size ≤ hay.size :=
  (occurrence?_some h).1

end Bytes
end BootStage
