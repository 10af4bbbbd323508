import BootStage.Proofs.LowestOccurrence
import BootStage.Run
/-!
# Searches are exact

A search gives what trying every position in turn would give. `SkipTable.scan` is the search as
it goes over the image, window by window, with each access checked: none of them is refused, so
whatever the pattern and wherever the search starts, only bytes inside the image are read.
-/

namespace BootStage

theorem OccursAt.iff_window {hay pattern : Bytes} {pos : Nat}
    (hfits : pos + pattern.size ≤ hay.size) :
    OccursAt hay pattern pos ↔ hay.extract pos (pos + pattern.size) = pattern := by
  have hsize : (hay.extract pos (pos + pattern.size)).size = pattern.size := by
    rw [Array.size_extract]
    omega
  have hbyte : ∀ i < pattern.size,
      (hay.extract pos (pos + pattern.size))[i]? = hay[pos + i]? := fun i hi => by
    rw [Array.getElem?_extract, if_pos (by omega)]
  constructor
  · rintro ⟨-, hsame⟩
    apply Array.ext_getElem?
    intro i
    by_cases hi : i < pattern.size
    · rw [hbyte i hi, hsame i hi]
    · rw [Array.getElem?_eq_none (by omega), Array.getElem?_eq_none (by omega)]
  · intro hwindow
    exact ⟨hfits, fun i hi => by rw [← hbyte i hi, hwindow]⟩

namespace SkipTable

/-- The search from `pos` on with every access checked: the window has to be a range of the
image, and it and the pattern have to have a last byte. -/
def scan (table : SkipTable) (hay : Bytes) (pos : Nat) : Except (Stop Empty) (Option Nat) :=
  if pos + table.pattern.size ≤ hay.size then
    match hay.range? pos (pos + table.pattern.size) with
    | none => .error .outOfRange
    | some window =>
      match window[table.pattern.size - 1]?, table.pattern[table.pattern.size - 1]? with
      | some last, some wanted =>
        if last = wanted ∧ window = table.pattern then .ok (some pos)
        else
          have := table.skip_pos last
          table.scan hay (pos + table.skips.get last.toFin)
      | _, _ => .error .outOfRange
  else .ok none
termination_by hay.size - pos
decreasing_by
  have := table.size_pos
  omega

/-- No access of a search is refused, and it comes to what `search` gives. -/
theorem scan_eq (table : SkipTable) (hay : Bytes) (pos : Nat) :
    table.scan hay pos = .ok (table.search hay pos) := by
  -- By induction on the bytes behind the window, as every window slides.
  induction hleft : hay.size - pos using Nat.strongRecOn generalizing pos with
  | ind left ih =>
    have hpattern := table.size_pos
    rw [scan, search_eq]
    by_cases hfits : pos + table.pattern.size ≤ hay.size
    · have hlast : (hay.extract pos (pos + table.pattern.size))[table.pattern.size - 1]? =
          some (hay.byte (pos + (table.pattern.size - 1))) := by
        rw [Array.getElem?_extract, if_pos (by omega), Bytes.byte,
          Array.getElem?_eq_getElem (by omega), Option.getD_some]
      have hwanted : table.pattern[table.pattern.size - 1]? =
          some table.pattern[table.pattern.size - 1] :=
        Array.getElem?_eq_getElem (by omega)
      rw [if_pos hfits, if_pos hfits, Bytes.range?_eq_some (by omega) hfits]
      dsimp only
      rw [hlast, hwanted]
      dsimp only
      by_cases hocc : OccursAt hay table.pattern pos
      · have hwindow := (OccursAt.iff_window hfits).1 hocc
        have hsame : hay.byte (pos + (table.pattern.size - 1)) =
            table.pattern[table.pattern.size - 1] := by
          rw [hwindow, hwanted] at hlast
          exact (Option.some.inj hlast).symm
        rw [if_pos ⟨hsame, hwindow⟩, if_pos hocc]
      · have hskip := table.skipAt_pos hay pos
        rw [if_neg fun hsame => hocc ((OccursAt.iff_window hfits).2 hsame.2), if_neg hocc]
        exact ih _ (by omega) (pos + table.skipAt hay pos) rfl
    · rw [if_neg hfits, if_neg hfits]

theorem ofPattern?_eq_none_iff {pattern : Bytes} : ofPattern? pattern = none ↔ pattern = #[] := by
  unfold ofPattern?
  split
  · next hpos =>
    refine ⟨fun h => absurd h (Option.some_ne_none _), ?_⟩
    rintro rfl
    cases hpos
  · next hempty => exact ⟨fun _ => Array.eq_empty_of_size_eq_zero (by omega), fun _ => rfl⟩

end SkipTable

namespace Bytes

theorem occurrenceFrom?_eq_some {hay pattern : Bytes} {start found : Nat} :
    hay.occurrenceFrom? pattern start = some found ↔
      pattern ≠ #[] ∧ IsLeast {place | start ≤ place ∧ OccursAt hay pattern place} found := by
  by_cases hempty : pattern = #[]
  · rw [occurrenceFrom?, SkipTable.ofPattern?_eq_none_iff.2 hempty, Option.bind_none]
    exact ⟨fun h => absurd h.symm (Option.some_ne_none found), fun h => absurd hempty h.1⟩
  · rw [occurrenceFrom?_eq_some_iff (Array.size_pos_iff.2 hempty)]
    exact ⟨fun h => ⟨hempty, h⟩, fun h => h.2⟩

theorem occurrenceFrom?_eq_none {hay pattern : Bytes} {start : Nat} :
    hay.occurrenceFrom? pattern start = none ↔
      pattern = #[] ∨ ∀ place, start ≤ place → ¬OccursAt hay pattern place := by
  by_cases hempty : pattern = #[]
  · rw [occurrenceFrom?, SkipTable.ofPattern?_eq_none_iff.2 hempty, Option.bind_none]
    exact ⟨fun _ => .inl hempty, fun _ => rfl⟩
  · rw [occurrenceFrom?_eq_none_iff (Array.size_pos_iff.2 hempty)]
    exact ⟨.inr, fun h => h.resolve_left hempty⟩

theorem occurrenceFrom?_eq_tail {hay pattern : Bytes} {start : Nat} (hstart : start ≤ hay.size) :
    hay.occurrenceFrom? pattern start =
      (occurrence? (hay.extract start hay.size) pattern).map (start + ·) := by
  have htail : ∀ place, OccursAt (hay.extract start hay.size) pattern place ↔
      OccursAt hay pattern (start + place) := fun place =>
    (occursAt_extract_iff hstart (Nat.le_refl _)).trans ⟨fun h => h.2, fun hocc => ⟨hocc.1, hocc⟩⟩
  cases hfound : occurrence? (hay.extract start hay.size) pattern with
  | none =>
    rcases occurrenceFrom?_eq_none.1 hfound with hempty | hnowhere
    · exact occurrenceFrom?_eq_none.2 (.inl hempty)
    · refine occurrenceFrom?_eq_none.2 (.inr fun place hplace hocc => ?_)
      rw [← Nat.add_sub_cancel' hplace, ← htail] at hocc
      exact hnowhere _ (Nat.zero_le _) hocc
  | some pos =>
    obtain ⟨hpattern, ⟨-, hocc⟩, hlow⟩ := occurrenceFrom?_eq_some.1 hfound
    refine occurrenceFrom?_eq_some.2
      ⟨hpattern, ⟨Nat.le_add_right _ _, (htail pos).1 hocc⟩, fun place hplace => ?_⟩
    obtain ⟨hbehind, hother⟩ := hplace
    rw [← Nat.add_sub_cancel' hbehind, ← htail] at hother
    have hle : pos ≤ place - start := hlow ⟨Nat.zero_le _, hother⟩
    calc start + pos
      _ ≤ start + (place - start) := Nat.add_le_add_left hle start
      _ = place := Nat.add_sub_cancel' hbehind

/-- A search gives the position at which the pattern occurs and below which it does not, and
nothing where there is none; from a start on it is the search of the bytes behind that start. A
table is built of every pattern but the empty one; it gives this answer for every image, from every
start, and no access of its search is refused. -/
theorem search_exact (pattern : Bytes) :
    (∀ hay found, occurrence? hay pattern = some found ↔
      pattern ≠ #[] ∧ OccursAt hay pattern found ∧ ∀ place < found, ¬OccursAt hay pattern place) ∧
    (∀ hay, occurrence? hay pattern = none ↔
      pattern = #[] ∨ ∀ place, ¬OccursAt hay pattern place) ∧
    (∀ hay start found, occurrenceFrom? hay pattern start = some found ↔
      pattern ≠ #[] ∧ IsLeast {place | start ≤ place ∧ OccursAt hay pattern place} found) ∧
    (∀ hay start, occurrenceFrom? hay pattern start = none ↔
      pattern = #[] ∨ ∀ place, start ≤ place → ¬OccursAt hay pattern place) ∧
    (∀ hay start, occurrenceFrom? hay pattern start =
      if start ≤ hay.size then (occurrence? (hay.extract start hay.size) pattern).map (start + ·)
      else none) ∧
    (SkipTable.ofPattern? pattern = none ↔ pattern = #[]) ∧
    ∀ table, SkipTable.ofPattern? pattern = some table → ∀ hay start,
      table.firstIn hay = occurrence? hay pattern ∧
      table.search hay start = occurrenceFrom? hay pattern start ∧
      table.scan hay start = .ok (table.search hay start) := by
  have hfrom : ∀ hay, occurrence? hay pattern = occurrenceFrom? hay pattern 0 := fun _ => rfl
  refine ⟨fun hay found => ?lowest, fun hay => ?nowhere, fun _ _ _ => occurrenceFrom?_eq_some,
    fun _ _ => occurrenceFrom?_eq_none, fun hay start => ?tail,
    SkipTable.ofPattern?_eq_none_iff, fun table htable hay start => ?table⟩
  case lowest =>
    rw [hfrom, occurrenceFrom?_eq_some]
    refine and_congr_right fun _ => ⟨fun ⟨hocc, hlow⟩ => ⟨hocc.2, fun place hlt hother => ?_⟩,
      fun ⟨hocc, hlow⟩ => ⟨⟨Nat.zero_le found, hocc⟩, fun place hplace => ?_⟩⟩
    · exact absurd (hlow ⟨Nat.zero_le place, hother⟩) (Nat.not_le.2 hlt)
    · exact Nat.not_lt.1 fun hlt => hlow place hlt hplace.2
  case nowhere =>
    rw [hfrom, occurrenceFrom?_eq_none]
    exact or_congr_right ⟨fun h place => h place (Nat.zero_le place), fun h place _ => h place⟩
  case tail =>
    by_cases hstart : start ≤ hay.size
    · rw [if_pos hstart, occurrenceFrom?_eq_tail hstart]
    · rw [if_neg hstart]
      refine occurrenceFrom?_eq_none.2 (.inr fun place hplace hocc => ?_)
      have hfits := hocc.1
      omega
  case table =>
    refine ⟨?_, ?_, table.scan_eq hay start⟩
    · rw [occurrence?, htable, Option.bind_some]
    · rw [occurrenceFrom?, htable, Option.bind_some]

/-- The pattern overlaps itself and its last byte also stands at its front. -/
theorem search_exact_selfOverlapping :
    occurrence? #[1, 2, 2, 1, 2, 1, 2, 1] #[1, 2, 1] = some 3 ∧
      occurrenceFrom? #[1, 2, 2, 1, 2, 1, 2, 1] #[1, 2, 1] 4 = some 5 ∧
      occurrenceFrom? #[1, 2, 2, 1, 2, 1, 2, 1] #[1, 2, 1] 9 = none ∧
      ∃ table, SkipTable.ofPattern? #[1, 2, 1] = some table ∧
        table.scan #[1, 2, 2, 1, 2, 1, 2, 1] 0 = .ok (some 3) := by
  obtain ⟨hlowest, -, hfrom, -, htail, -, htable⟩ := search_exact #[1, 2, 1]
  have hfound : occurrence? #[1, 2, 2, 1, 2, 1, 2, 1] #[1, 2, 1] = some 3 :=
    (hlowest _ 3).2 ⟨by decide, by decide, by decide⟩
  have hpattern : 0 < Array.size (#[1, 2, 1] : Bytes) := by decide
  obtain ⟨table, hsome, -⟩ := exists_table hpattern
  obtain ⟨hfirst, -, hscan⟩ := htable table hsome #[1, 2, 2, 1, 2, 1, 2, 1] 0
  refine ⟨hfound, (hfrom _ 4 5).2 ⟨by decide, ⟨by decide, by decide⟩, ?_⟩,
    htail _ 9, table, hsome, hscan.trans (congrArg _ (hfirst.trans hfound))⟩
  -- The only lower place is the start itself.
  rintro place ⟨hstart, hocc⟩
  have hne : place ≠ 4 := by
    rintro rfl
    exact absurd hocc (by decide)
  omega

end Bytes
end BootStage
