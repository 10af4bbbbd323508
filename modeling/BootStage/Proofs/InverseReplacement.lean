import BootStage.Proofs.Replacements
/-!
# Replacements undone

A replacement that starts with a byte the image did not have stands in the changed image just
where it was written: any occurrence starts with that byte, so it starts inside a replaced window,
and the lowest one from the end of a window on is the next window. So the inverse replacement,
which takes the occurrences from the left as well, goes over the same windows, however the
replaced bytes join.
-/

namespace BootStage

namespace Bytes

variable {image replacement : Bytes} {places : List Nat} {i : Nat}

theorem getElem?_replacedAt_of_covers {place : Nat}
    (hspaced : places.Pairwise fun first later => first + replacement.size ≤ later)
    (hplace : place ∈ places) (hstart : place ≤ i) (hstop : i < place + replacement.size)
    (hi : i < image.size) :
    (image.replacedAt places 0 replacement)[i]? = replacement[i - place]? := by
  have hwrite : (⟨place, replacement⟩ : Write) ∈
      places.map fun place : Nat => ⟨((place : Int) + 0).toNat, replacement⟩ :=
    List.mem_map.2 ⟨place, hplace, by simp⟩
  refine getElem?_layAll_of_covers ?_ hwrite ⟨hstart, hstop⟩ hi
  simpa [List.pairwise_map] using hspaced

theorem getElem?_replacedAt_of_clear
    (h : ∀ place ∈ places, place ≤ i → place + replacement.size ≤ i) :
    (image.replacedAt places 0 replacement)[i]? = image[i]? := by
  refine getElem?_layAll_of_clear fun write hwrite hcovers => ?_
  obtain ⟨place, hplace, rfl⟩ := List.mem_map.1 hwrite
  have hbehind := h place hplace
  simp only [Write.Covers] at hcovers
  omega

/-- Bytes of one size that stand in the windows are brought back by a second replacement. -/
theorem replacedAt_replacedAt {pattern : Bytes} (hsame : pattern.size = replacement.size)
    (hspaced : places.Pairwise fun first later => first + pattern.size ≤ later)
    (hocc : ∀ place ∈ places, OccursAt image pattern place) :
    (image.replacedAt places 0 replacement).replacedAt places 0 pattern = image := by
  apply Array.ext_getElem?
  intro i
  by_cases hin : i < image.size
  · by_cases hcovers : ∃ place ∈ places, place ≤ i ∧ i < place + pattern.size
    · obtain ⟨place, hplace, hstart, hstop⟩ := hcovers
      rw [getElem?_replacedAt_of_covers hspaced hplace hstart hstop (by simpa using hin),
        ← (hocc place hplace).2 (i - place) (by omega), Nat.add_sub_cancel' hstart]
    · have hclear : ∀ place ∈ places, place ≤ i → place + pattern.size ≤ i :=
        fun place hplace hstart => Nat.not_lt.1 fun hstop => hcovers ⟨place, hplace, hstart, hstop⟩
      rw [getElem?_replacedAt_of_clear hclear, getElem?_replacedAt_of_clear (hsame ▸ hclear)]
  · rw [Array.getElem?_eq_none (by simpa using hin), Array.getElem?_eq_none (by omega)]

end Bytes

/-- Occurrences that lie apart are all there are from the left, where only they have the byte that
the pattern starts with. -/
theorem Leftmost.of_first_byte {hay pattern : Bytes} {first : UInt8} {start : Nat}
    {places : List Nat} (hpattern : pattern[0]? = some first)
    (hspaced : places.Pairwise fun first later => first + pattern.size ≤ later)
    (hocc : ∀ place ∈ places, start ≤ place ∧ OccursAt hay pattern place)
    (hfirst : ∀ i, start ≤ i → hay[i]? = some first →
      ∃ place ∈ places, place ≤ i ∧ i < place + pattern.size) :
    Leftmost hay pattern start places := by
  have hsize : 0 < pattern.size := by
    obtain ⟨hsize, -⟩ := Array.getElem?_eq_some_iff.1 hpattern
    exact hsize
  have hstands : ∀ {other}, OccursAt hay pattern other → hay[other]? = some first :=
    fun {other} hother => (hother.2 0 hsize).trans hpattern
  induction places generalizing start with
  | nil =>
    refine .done fun other hother hoccurs => ?_
    obtain ⟨place, hnone, -⟩ := hfirst other hother (hstands hoccurs)
    cases hnone
  | cons place rest ih =>
    obtain ⟨hbehind, hrest⟩ := List.pairwise_cons.1 hspaced
    refine .next ⟨hocc place List.mem_cons_self, fun other ⟨hother, hoccurs⟩ => ?_⟩
      (ih hrest (fun later hlater => ?_) fun i hi hbyte => ?_)
    · obtain ⟨window, hwindow, hstart, -⟩ := hfirst other hother (hstands hoccurs)
      rcases List.mem_cons.1 hwindow with rfl | hlater
      · exact hstart
      · have hafter := hbehind window hlater
        omega
    · exact ⟨hbehind later hlater, (hocc later (List.mem_cons_of_mem place hlater)).2⟩
    · have hplace := (hocc place List.mem_cons_self).1
      obtain ⟨window, hwindow, hstart, hstop⟩ := hfirst i (by omega) hbyte
      rcases List.mem_cons.1 hwindow with rfl | hlater
      · omega
      · exact ⟨window, hlater, hstart, hstop⟩

namespace Bytes

variable {image replacement : Bytes} {places : List Nat}

/-- The new bytes stand in the changed image just where they were written. -/
theorem leftmost_replacedAt (hpos : 0 < replacement.size) (hfresh : replacement[0] ∉ image)
    (hspaced : places.Pairwise fun first later => first + replacement.size ≤ later)
    (hfits : ∀ place ∈ places, place + replacement.size ≤ image.size) :
    Leftmost (image.replacedAt places 0 replacement) replacement 0 places := by
  refine .of_first_byte (Array.getElem?_eq_getElem hpos) hspaced
    (fun place hplace => ⟨Nat.zero_le place, by simpa using hfits place hplace, fun i hi => ?_⟩)
    fun i _ hbyte => ?_
  · have hin := hfits place hplace
    rw [getElem?_replacedAt_of_covers hspaced hplace (by omega) (by omega) (by omega),
      Nat.add_sub_cancel_left]
  · -- Outside the windows the byte would have been in the image before.
    by_contra hclear
    push Not at hclear
    rw [getElem?_replacedAt_of_clear hclear] at hbyte
    exact hfresh (Array.mem_of_getElem? hbyte)

/-- What is replaced by bytes of the same size, the first of which the image does not have, is
brought back by the inverse replacement, with as many writes. -/
theorem replace_inverse (hay old new : Bytes) (limit : Nat) (hsame : old.size = new.size)
    (hpos : 0 < new.size) (hfresh : new[0] ∉ hay) (hsize : hay.size < positionLimit) :
    ∃ places changed, Leftmost hay old 0 places ∧
      changed = hay.replacedAt (places.take limit) 0 new ∧
      hay.replace old 0 new limit = (.ok (min limit places.length), changed) ∧
      Leftmost changed new 0 (places.take limit) ∧
      changed.replace new 0 old limit = (.ok (min limit places.length), hay) := by
  have hpattern : 0 < old.size := hsame ▸ hpos
  obtain ⟨places, hplaces⟩ := Leftmost.exists_places hpattern hay 0
  have hspaced : (places.take limit).Pairwise fun first later => first + old.size ≤ later :=
    hplaces.spaced.sublist (List.take_sublist limit places)
  have hocc : ∀ place ∈ places.take limit, OccursAt hay old place :=
    fun place hplace => (hplaces.occursAt (List.mem_of_mem_take hplace)).2
  have hforth : hay.replace old 0 new limit =
      (.ok (min limit places.length), hay.replacedAt (places.take limit) 0 new) :=
    replace_of_leftmost hpattern (by omega) hsize hplaces fun _ _ => by omega
  have hwindows : Leftmost (hay.replacedAt (places.take limit) 0 new) new 0 (places.take limit) :=
    leftmost_replacedAt hpos hfresh (hsame ▸ hspaced) fun place hplace =>
      hsame ▸ (hocc place hplace).1
  have hback : (hay.replacedAt (places.take limit) 0 new).replace new 0 old limit =
      (.ok (min limit places.length), hay) :=
    calc (hay.replacedAt (places.take limit) 0 new).replace new 0 old limit
      _ = (.ok (min limit (places.take limit).length),
            (hay.replacedAt (places.take limit) 0 new).replacedAt ((places.take limit).take limit)
              0 old) :=
          replace_of_leftmost hpos (by omega) (by rwa [size_replacedAt]) hwindows
            fun _ _ => by omega
      _ = (.ok (min limit places.length), hay) := by
          rw [List.take_take, Nat.min_self, List.length_take, ← Nat.min_assoc, Nat.min_self,
            replacedAt_replacedAt hsame hspaced hocc]
  exact ⟨places, _, hplaces, rfl, hforth, hwindows, hback⟩

/-- Three replaced pairs stand side by side, and the new bytes overlap themselves. -/
theorem replace_inverse_adjacent :
    (5 : UInt8) ∉ (#[1, 1, 1, 1, 1, 1, 1, 0] : Bytes) ∧
      replace #[1, 1, 1, 1, 1, 1, 1, 0] #[1, 1] 0 #[5, 5] 4 =
        (.ok 3, #[5, 5, 5, 5, 5, 5, 1, 0]) ∧
      replace #[5, 5, 5, 5, 5, 5, 1, 0] #[5, 5] 0 #[1, 1] 4 =
        (.ok 3, #[1, 1, 1, 1, 1, 1, 1, 0]) := by
  have hfresh : (5 : UInt8) ∉ (#[1, 1, 1, 1, 1, 1, 1, 0] : Bytes) := by simp
  have hchanges : replace #[1, 1, 1, 1, 1, 1, 1, 0] #[1, 1] 0 #[5, 5] 4 =
      (.ok 3, #[5, 5, 5, 5, 5, 5, 1, 0]) := by
    decide +kernel
  obtain ⟨places, changed, -, -, hforth, -, hback⟩ :=
    replace_inverse #[1, 1, 1, 1, 1, 1, 1, 0] #[1, 1] #[5, 5] 4 rfl (by decide) hfresh (by decide)
  rw [hchanges] at hforth
  obtain ⟨hcount, rfl⟩ := Prod.mk.inj hforth
  rw [← hcount] at hback
  exact ⟨hfresh, hchanges, hback⟩

end Bytes
end BootStage
