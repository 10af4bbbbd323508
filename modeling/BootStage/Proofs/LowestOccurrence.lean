import BootStage.Proofs.Searching
import Mathlib.Order.Bounds.Basic
/-!
# Searches pass no occurrence

The skip of a byte is at most the distance from its last earlier place in the pattern to the
pattern's end. A window that slides by it cannot pass an occurrence, since that occurrence
would have the byte at a later place. So a search finds the lowest occurrence there is.
-/

namespace BootStage

namespace SkipTable

/-- No window is slid past an occurrence of the pattern. -/
def Sound (table : SkipTable) : Prop :=
  ∀ hay pos between, pos < between → between < pos + table.skipAt hay pos →
    ¬OccursAt hay table.pattern between

theorem get_entered_succ (pattern : Bytes) {i : Nat} (hi : i < pattern.size)
    (h : i + 1 < pattern.size) (b : UInt8) :
    (entered pattern (i + 1) h).get b.toFin =
      if pattern[i].toNat = b.toNat then pattern.size - 1 - i
      else (entered pattern i hi).get b.toFin := by
  have hb := b.toNat_lt
  change (entered pattern (i + 1) h)[b.toNat] = _
  rw [entered_succ, Vector.getElem_set]
  rfl

theorem entered_le_size (pattern : Bytes) (count : Nat) (h : count < pattern.size) (b : UInt8) :
    (entered pattern count h).get b.toFin ≤ pattern.size := by
  induction count with
  | zero =>
    have hb := b.toNat_lt
    have hskip : (entered pattern 0 h)[b.toNat] = pattern.size := Vector.getElem_replicate hb
    exact Nat.le_of_eq hskip
  | succ i ih =>
    rw [get_entered_succ pattern (Nat.lt_of_succ_lt h) h]
    split
    · omega
    · exact ih (by omega)

/-- A byte at place `j` slides the window at most until that place meets it. -/
theorem entered_le (pattern : Bytes) (count : Nat) (h : count < pattern.size) (b : UInt8)
    (j : Nat) (hj : j < count) (hbyte : pattern[j]? = some b) :
    (entered pattern count h).get b.toFin ≤ pattern.size - 1 - j := by
  induction count with
  | zero => omega
  | succ i ih =>
    rw [get_entered_succ pattern (Nat.lt_of_succ_lt h) h]
    split
    · omega
    · next hother =>
      -- The byte entered last is another one, so `j` is an earlier place.
      have hne : j ≠ i := by
        rintro rfl
        rw [Array.getElem?_eq_getElem (by omega)] at hbyte
        exact hother (congrArg UInt8.toNat (Option.some.inj hbyte))
      exact ih (by omega) (by omega)

theorem skipAt_eq {pattern : Bytes} {table : SkipTable} (h : ofPattern? pattern = some table)
    (hay : Bytes) (pos : Nat) :
    ∃ hsize : pattern.size - 1 < pattern.size, table.pattern = pattern ∧
      table.skipAt hay pos =
        (entered pattern (pattern.size - 1) hsize).get
          (hay.byte (pos + (pattern.size - 1))).toFin := by
  unfold ofPattern? at h
  split at h
  · next hpos =>
    obtain rfl := Option.some.inj h
    exact ⟨by omega, rfl, rfl⟩
  · cases h

theorem pattern_of_ofPattern? {pattern : Bytes} {table : SkipTable}
    (h : ofPattern? pattern = some table) : table.pattern = pattern := by
  obtain ⟨-, hpattern, -⟩ := skipAt_eq h #[] 0
  exact hpattern

theorem sound_ofPattern? {pattern : Bytes} {table : SkipTable}
    (h : ofPattern? pattern = some table) : table.Sound := by
  intro hay pos between hafter hbefore hocc
  obtain ⟨hsize, hpattern, hskip⟩ := skipAt_eq h hay pos
  rw [hpattern] at hocc
  have hle := entered_le_size pattern (pattern.size - 1) hsize
    (hay.byte (pos + (pattern.size - 1)))
  -- The last byte of the window stands in the occurrence at place `j`.
  have hj : pattern.size - 1 - (between - pos) < pattern.size := by omega
  have hplace : hay[pos + (pattern.size - 1)]? = pattern[pattern.size - 1 - (between - pos)]? := by
    rw [← hocc.2 _ hj]
    congr 1
    omega
  have hbyte : pattern[pattern.size - 1 - (between - pos)]? =
      some (hay.byte (pos + (pattern.size - 1))) := by
    rw [← hplace, Bytes.byte]
    have hin : pos + (pattern.size - 1) < hay.size := by
      have := hocc.1
      omega
    rw [Array.getElem?_eq_getElem hin, Option.getD_some]
  have hshort := entered_le pattern (pattern.size - 1) hsize _ _ (by omega) hbyte
  omega

theorem isLeast_search {table : SkipTable} (hsound : table.Sound) {hay : Bytes}
    {pos found : Nat} (h : table.search hay pos = some found) :
    IsLeast {place | pos ≤ place ∧ OccursAt hay table.pattern place} found := by
  induction hleft : hay.size - pos using Nat.strongRecOn generalizing pos with
  | ind left ih =>
    have hfound := search_some h
    refine ⟨hfound, fun place hplace => ?_⟩
    rw [search_eq] at h
    split at h
    · next hfits =>
      split at h
      · next hocc =>
        obtain rfl := Option.some.inj h
        exact hplace.1
      · next hnone =>
        have hskip := table.skipAt_pos hay pos
        have hpattern := table.size_pos
        have hrest := ih _ (by omega) h rfl
        -- The place is not the window's, nor one that the window slides over.
        have hne : place ≠ pos := by
          rintro rfl
          exact hnone hplace.2
        have hpassed : ¬place < pos + table.skipAt hay pos := fun hlt =>
          hsound hay pos place (by have := hplace.1; omega) hlt hplace.2
        exact hrest.2 ⟨by omega, hplace.2⟩
    · cases h

theorem not_occursAt_of_search {table : SkipTable} (hsound : table.Sound) {hay : Bytes}
    {pos : Nat} (h : table.search hay pos = none) (place : Nat) (hplace : pos ≤ place) :
    ¬OccursAt hay table.pattern place := by
  intro hocc
  induction hleft : hay.size - pos using Nat.strongRecOn generalizing pos with
  | ind left ih =>
    have hfits : place + table.pattern.size ≤ hay.size := hocc.1
    have hskip := table.skipAt_pos hay pos
    have hpattern := table.size_pos
    rw [search_eq, if_pos (by omega)] at h
    split at h
    · cases h
    · next hnone =>
      have hne : place ≠ pos := by
        rintro rfl
        exact hnone hocc
      have hpassed : ¬place < pos + table.skipAt hay pos := fun hlt =>
        hsound hay pos place (by omega) hlt hocc
      exact ih _ (by omega) h (by omega) rfl

theorem search_eq_some_iff {table : SkipTable} (hsound : table.Sound) {hay : Bytes}
    {pos found : Nat} :
    table.search hay pos = some found ↔
      IsLeast {place | pos ≤ place ∧ OccursAt hay table.pattern place} found := by
  refine ⟨isLeast_search hsound, fun hleast => ?_⟩
  cases hsearch : table.search hay pos with
  | none => exact absurd hleast.1.2 (not_occursAt_of_search hsound hsearch _ hleast.1.1)
  | some other => rw [(isLeast_search hsound hsearch).unique hleast]

theorem search_eq_none_iff {table : SkipTable} (hsound : table.Sound) {hay : Bytes} {pos : Nat} :
    table.search hay pos = none ↔ ∀ place, pos ≤ place → ¬OccursAt hay table.pattern place := by
  refine ⟨not_occursAt_of_search hsound, fun hnowhere => ?_⟩
  cases hsearch : table.search hay pos with
  | none => rfl
  | some found =>
    have hfound := (isLeast_search hsound hsearch).1
    exact absurd hfound.2 (hnowhere found hfound.1)

end SkipTable

namespace Bytes

variable {hay pattern : Bytes} {start found : Nat}

theorem exists_table (hpattern : 0 < pattern.size) :
    ∃ table, SkipTable.ofPattern? pattern = some table ∧ table.pattern = pattern ∧
      table.Sound := by
  obtain ⟨table, htable⟩ : ∃ table, SkipTable.ofPattern? pattern = some table :=
    ⟨_, dif_pos hpattern⟩
  exact ⟨table, htable, SkipTable.pattern_of_ofPattern? htable,
    SkipTable.sound_ofPattern? htable⟩

theorem occurrenceFrom?_eq_some_iff (hpattern : 0 < pattern.size) :
    hay.occurrenceFrom? pattern start = some found ↔
      IsLeast {place | start ≤ place ∧ OccursAt hay pattern place} found := by
  obtain ⟨table, htable, hsame, hsound⟩ := exists_table hpattern
  rw [occurrenceFrom?, htable, Option.bind_some, ← hsame]
  exact SkipTable.search_eq_some_iff hsound

theorem occurrenceFrom?_eq_none_iff (hpattern : 0 < pattern.size) :
    hay.occurrenceFrom? pattern start = none ↔
      ∀ place, start ≤ place → ¬OccursAt hay pattern place := by
  obtain ⟨table, htable, hsame, hsound⟩ := exists_table hpattern
  rw [occurrenceFrom?, htable, Option.bind_some, ← hsame]
  exact SkipTable.search_eq_none_iff hsound

theorem occurrence?_eq_some_iff (hpattern : 0 < pattern.size) :
    hay.occurrence? pattern = some found ↔ IsLeast {place | OccursAt hay pattern place} found := by
  have hfrom : hay.occurrence? pattern = hay.occurrenceFrom? pattern 0 := rfl
  have hset : {place | OccursAt hay pattern place} =
      {place | 0 ≤ place ∧ OccursAt hay pattern place} := by
    ext place
    exact ⟨fun h => ⟨Nat.zero_le place, h⟩, fun h => h.2⟩
  rw [hfrom, occurrenceFrom?_eq_some_iff hpattern, hset]

theorem occurrence?_eq_none_iff (hpattern : 0 < pattern.size) :
    hay.occurrence? pattern = none ↔ ∀ place, ¬OccursAt hay pattern place := by
  have hfrom : hay.occurrence? pattern = hay.occurrenceFrom? pattern 0 := rfl
  rw [hfrom, occurrenceFrom?_eq_none_iff hpattern]
  exact ⟨fun h place => h place (Nat.zero_le place), fun h place _ => h place⟩

theorem anchor?_eq_some_iff {back : Nat} (hpattern : 0 < pattern.size) :
    hay.anchor? pattern back = some found ↔
      IsLeast {place | OccursAt hay pattern place} (found + back) := by
  rw [← occurrence?_eq_some_iff hpattern, anchor?]
  constructor
  · intro h
    obtain ⟨place, hplace, hback⟩ := Option.bind_eq_some_iff.1 h
    split at hback
    · next hle =>
      obtain rfl := Option.some.inj hback
      rw [hplace, Nat.sub_add_cancel hle]
    · cases hback
  · intro h
    rw [h, Option.bind_some, if_pos (Nat.le_add_left _ _), Nat.add_sub_cancel]

/-! ## Searches in a window -/

theorem occursAt_extract_iff {stop pos : Nat} (h : start ≤ stop) (hstop : stop ≤ hay.size) :
    OccursAt (hay.extract start stop) pattern pos ↔
      start + pos + pattern.size ≤ stop ∧ OccursAt hay pattern (start + pos) := by
  have hsize : (hay.extract start stop).size = stop - start := by
    rw [Array.size_extract]
    omega
  have hbyte : ∀ i, pos + i < stop - start →
      (hay.extract start stop)[pos + i]? = hay[start + pos + i]? := by
    intro i hi
    rw [Array.getElem?_extract, if_pos (by omega), Nat.add_assoc]
  unfold OccursAt
  rw [hsize]
  constructor
  · rintro ⟨hfits, hsame⟩
    refine ⟨by omega, by omega, fun i hi => ?_⟩
    rw [← hbyte i (by omega)]
    exact hsame i hi
  · rintro ⟨hfits, -, hsame⟩
    refine ⟨by omega, fun i hi => ?_⟩
    rw [hbyte i (by omega)]
    exact hsame i hi

theorem isLeast_extract_iff {stop pos : Nat} (h : start ≤ stop) (hstop : stop ≤ hay.size) :
    IsLeast {place | OccursAt (hay.extract start stop) pattern place} pos ↔
      IsLeast {place | start ≤ place ∧ place + pattern.size ≤ stop ∧ OccursAt hay pattern place}
        (start + pos) := by
  have hin : ∀ place, OccursAt (hay.extract start stop) pattern place ↔
      start + place + pattern.size ≤ stop ∧ OccursAt hay pattern (start + place) :=
    fun _ => occursAt_extract_iff h hstop
  constructor
  · rintro ⟨hocc, hlow⟩
    refine ⟨⟨Nat.le_add_right _ _, (hin pos).1 hocc⟩, ?_⟩
    rintro place ⟨hstart, hplace⟩
    have hback : start + (place - start) = place := Nat.add_sub_cancel' hstart
    have hle : pos ≤ place - start := hlow ((hin _).2 (hback.symm ▸ hplace))
    omega
  · rintro ⟨⟨-, hocc⟩, hlow⟩
    refine ⟨(hin pos).2 hocc, fun place hplace => ?_⟩
    have hle : start + pos ≤ start + place := hlow ⟨Nat.le_add_right _ _, (hin place).1 hplace⟩
    omega

theorem isLeast_window_iff {len pos : Nat} (h : start ≤ hay.size) :
    IsLeast {place | OccursAt (hay.extract start (min (start + len) hay.size)) pattern place} pos ↔
      IsLeast {place | start ≤ place ∧ place + pattern.size ≤ start + len ∧
        OccursAt hay pattern place} (start + pos) := by
  have hset : {place | start ≤ place ∧ place + pattern.size ≤ min (start + len) hay.size ∧
      OccursAt hay pattern place} = {place | start ≤ place ∧ place + pattern.size ≤ start + len ∧
        OccursAt hay pattern place} := by
    ext place
    constructor
    · rintro ⟨hstart, hstop, hocc⟩
      exact ⟨hstart, by omega, hocc⟩
    · rintro ⟨hstart, hstop, hocc⟩
      have hfits : place + pattern.size ≤ hay.size := hocc.1
      exact ⟨hstart, by omega, hocc⟩
  rw [isLeast_extract_iff (by omega) (Nat.min_le_right _ _), hset]

end Bytes
end BootStage
