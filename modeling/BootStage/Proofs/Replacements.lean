import BootStage.Proofs.EditEffects
import BootStage.Proofs.LaidWrites
import BootStage.Proofs.LowestOccurrence
/-!
# Pattern patches replace greedily

A pattern patch searches the bytes it is changing. Where its writes end within the occurrence they
belong to, no write reaches bytes that are still to be searched, so the patch comes to the same as
finding all occurrences first, from the left and without overlap, and then writing at each of them.
Without that condition the occurrences are those of the changed bytes, but they still lie one
behind the other, so there are only so many.
-/

namespace BootStage

/-- `places` are the occurrences of `pattern` from `start` on, taken from the left and without
overlap: the lowest one, and then those behind it. -/
inductive Leftmost (hay pattern : Bytes) : (start : Nat) → (places : List Nat) → Prop
  | done {start : Nat} (h : ∀ place, start ≤ place → ¬OccursAt hay pattern place) :
      Leftmost hay pattern start []
  | next {start place : Nat} {rest : List Nat}
      (h : IsLeast {place | start ≤ place ∧ OccursAt hay pattern place} place)
      (hrest : Leftmost hay pattern (place + pattern.size) rest) :
      Leftmost hay pattern start (place :: rest)

/-- A run of a pattern patch from `start` on, with the places it wrote for: each is the lowest
occurrence there is by then, in the bytes as the writes before have left them. -/
inductive Replacing (pattern : Bytes) (offset : Int) (replacement : Bytes) :
    (limit start : Nat) → (before : Bytes) → (places : List Nat) →
      (result : Except WriteFailure Unit) → (after : Bytes) → Prop
  | spent {start : Nat} {image : Bytes} :
      Replacing pattern offset replacement 0 start image [] (.ok ()) image
  | done {limit start : Nat} {image : Bytes}
      (h : ∀ place, start ≤ place → ¬OccursAt image pattern place) :
      Replacing pattern offset replacement limit start image [] (.ok ()) image
  | refused {limit start place : Nat} {image : Bytes} {err : WriteFailure}
      (h : IsLeast {place | start ≤ place ∧ OccursAt image pattern place} place)
      (hpos : Bytes.writeStart image.size place offset replacement.size = .error err) :
      Replacing pattern offset replacement (limit + 1) start image [] (.error err) image
  | next {limit start place pos : Nat} {image after : Bytes} {rest : List Nat}
      {result : Except WriteFailure Unit}
      (h : IsLeast {place | start ≤ place ∧ OccursAt image pattern place} place)
      (hpos : Bytes.writeStart image.size place offset replacement.size = .ok pos)
      (hrest : Replacing pattern offset replacement limit (place + pattern.size)
        (image.overwrite pos replacement) rest result after) :
      Replacing pattern offset replacement (limit + 1) start image (place :: rest) result after

namespace Bytes

def replacedAt (image : Bytes) (places : List Nat) (offset : Int) (replacement : Bytes) : Bytes :=
  image.layAll (places.map fun place : Nat => ⟨((place : Int) + offset).toNat, replacement⟩)

@[simp] theorem size_replacedAt (image : Bytes) (places : List Nat) (offset : Int)
    (replacement : Bytes) : (image.replacedAt places offset replacement).size = image.size :=
  size_layAll _ _

theorem writeStart_of_neg {size base len : Nat} {offset : Int} (h : (base : Int) + offset < 0) :
    writeStart size base offset len = .error ⟨base, offset, len, size⟩ := by
  cases hstart : writeStart size base offset len with
  | error err => rw [writeStart_eq_error hstart]
  | ok start =>
    have hsum := (writeStart_eq_ok hstart).1
    omega

end Bytes

theorem OccursAt.congr {hay hay' pattern : Bytes} {start place : Nat}
    (hsize : hay'.size = hay.size) (hsame : ∀ i, start ≤ i → hay'[i]? = hay[i]?)
    (hplace : start ≤ place) : OccursAt hay' pattern place ↔ OccursAt hay pattern place := by
  have hbyte : ∀ i, hay'[place + i]? = hay[place + i]? := fun i => hsame _ (by omega)
  simp only [OccursAt, hsize, hbyte]

namespace Leftmost

variable {hay hay' pattern : Bytes} {start : Nat} {places : List Nat}

theorem unique {other : List Nat} (h : Leftmost hay pattern start places)
    (hother : Leftmost hay pattern start other) : other = places := by
  induction h generalizing other with
  | done hnone =>
    cases hother with
    | done => rfl
    | next hfirst _ => exact absurd hfirst.1.2 (hnone _ hfirst.1.1)
  | next hfirst _ ih =>
    cases hother with
    | done hnone => exact absurd hfirst.1.2 (hnone _ hfirst.1.1)
    | next hfirst' hrest' =>
      obtain rfl := hfirst.unique hfirst'
      rw [ih hrest']

theorem exists_places (hpattern : 0 < pattern.size) (hay : Bytes) (start : Nat) :
    ∃ places, Leftmost hay pattern start places := by
  induction hleft : hay.size - start using Nat.strongRecOn generalizing start with
  | ind left ih =>
    cases hfound : hay.occurrenceFrom? pattern start with
    | none => exact ⟨[], .done ((Bytes.occurrenceFrom?_eq_none_iff hpattern).1 hfound)⟩
    | some place =>
      have hleast := (Bytes.occurrenceFrom?_eq_some_iff hpattern).1 hfound
      have hstart : start ≤ place := hleast.1.1
      have hfits := hleast.1.2.1
      obtain ⟨rest, hrest⟩ := ih _ (by omega) (place + pattern.size) rfl
      exact ⟨place :: rest, .next hleast hrest⟩

theorem occursAt (h : Leftmost hay pattern start places) {place : Nat} (hplace : place ∈ places) :
    start ≤ place ∧ OccursAt hay pattern place := by
  induction h with
  | done => cases hplace
  | next hfirst _ ih =>
    rcases List.mem_cons.1 hplace with rfl | hlater
    · exact hfirst.1
    · have hbehind := ih hlater
      exact ⟨by have := hfirst.1.1; omega, hbehind.2⟩

theorem spaced (h : Leftmost hay pattern start places) :
    places.Pairwise fun first later => first + pattern.size ≤ later := by
  induction h with
  | done => exact .nil
  | next _ hrest ih => exact .cons (fun later hlater => (hrest.occursAt hlater).1) ih

theorem congr (hsize : hay'.size = hay.size) (hsame : ∀ i, start ≤ i → hay'[i]? = hay[i]?)
    (h : Leftmost hay pattern start places) : Leftmost hay' pattern start places := by
  induction h with
  | done hnone =>
    exact .done fun place hplace hocc =>
      hnone place hplace ((OccursAt.congr hsize hsame hplace).1 hocc)
  | next hfirst _ ih =>
    obtain ⟨⟨hstart, hocc⟩, hlow⟩ := hfirst
    refine .next ⟨⟨hstart, (OccursAt.congr hsize hsame hstart).2 hocc⟩, ?_⟩
      (ih fun i hi => hsame i (by omega))
    exact fun other hother =>
      hlow ⟨hother.1, (OccursAt.congr hsize hsame hother.1).1 hother.2⟩

end Leftmost

namespace Replacing

variable {pattern replacement image after : Bytes} {offset : Int} {limit start : Nat}
  {places : List Nat} {result : Except WriteFailure Unit}

theorem exists_run (hpattern : 0 < pattern.size) (offset : Int) (replacement : Bytes)
    (limit start : Nat) (image : Bytes) :
    ∃ places result after,
      Replacing pattern offset replacement limit start image places result after := by
  induction limit generalizing start image with
  | zero => exact ⟨[], .ok (), image, .spent⟩
  | succ limit ih =>
    cases hfound : image.occurrenceFrom? pattern start with
    | none =>
      exact ⟨[], .ok (), image, .done ((Bytes.occurrenceFrom?_eq_none_iff hpattern).1 hfound)⟩
    | some place =>
      have hleast := (Bytes.occurrenceFrom?_eq_some_iff hpattern).1 hfound
      cases hpos : Bytes.writeStart image.size place offset replacement.size with
      | error err => exact ⟨[], .error err, image, .refused hleast hpos⟩
      | ok pos =>
        obtain ⟨rest, result, after, hrest⟩ :=
          ih (place + pattern.size) (image.overwrite pos replacement)
        exact ⟨place :: rest, result, after, .next hleast hpos hrest⟩

/-- Each write leaves a pattern's length less to be searched. -/
theorem length_mul_le (h : Replacing pattern offset replacement limit start image places result
    after) : places.length * pattern.size ≤ image.size - start := by
  induction h with
  | spent | done | refused => simp
  | next hleast _ _ ih =>
    have hstart := hleast.1.1
    have hfits := hleast.1.2.1
    rw [Bytes.size_overwrite] at ih
    rw [List.length_cons, Nat.succ_mul]
    omega

theorem length_le_limit (h : Replacing pattern offset replacement limit start image places result
    after) : places.length ≤ limit := by
  induction h with
  | spent | done | refused => exact Nat.zero_le _
  | next _ _ _ ih => exact Nat.succ_le_succ ih

theorem of_idle (h : Leftmost image pattern start places) (hidle : limit = 0 ∨ places = []) :
    Replacing pattern offset replacement limit start image [] (.ok ()) image := by
  rcases hidle with rfl | rfl
  · exact .spent
  · cases h with
    | done hnone => exact .done hnone

theorem of_neg {first : Nat} (h : Leftmost image pattern start places)
    (hfirst : first ∈ places.head?) (hlimit : 0 < limit) (hneg : (first : Int) + offset < 0) :
    Replacing pattern offset replacement limit start image []
      (.error ⟨first, offset, replacement.size, image.size⟩) image := by
  obtain ⟨limit, rfl⟩ := Nat.exists_eq_succ_of_ne_zero (Nat.ne_of_gt hlimit)
  cases h with
  | done => cases hfirst
  | next hleast _ =>
    obtain rfl := Option.some.inj hfirst
    exact .refused hleast (Bytes.writeStart_of_neg hneg)

/-- Where writes end within their occurrence, those behind are left as they were. -/
theorem of_leftmost (hshape : offset + replacement.size ≤ pattern.size)
    (hsize : image.size < positionLimit) (h : Leftmost image pattern start places)
    (hfront : ∀ place ∈ places, 0 ≤ (place : Int) + offset) :
    Replacing pattern offset replacement limit start image (places.take limit) (.ok ())
      (image.replacedAt (places.take limit) offset replacement) := by
  induction limit generalizing start image places with
  | zero => exact .spent
  | succ limit ih =>
    cases h with
    | done hnone => exact .done hnone
    | @next _ place rest hleast hrest =>
      have hfits := hleast.1.2.1
      have hstart := hfront place List.mem_cons_self
      have hpos : Bytes.writeStart image.size place offset replacement.size =
          .ok ((place : Int) + offset).toNat :=
        Bytes.writeStart_of_fits (by omega) (by omega) hsize
      refine .next hleast hpos (ih (by rwa [Bytes.size_overwrite]) (hrest.congr ?_ ?_) ?_)
      · exact Bytes.size_overwrite _ _ _
      · intro i hi
        rw [Bytes.getElem?_overwrite, if_neg (by omega)]
      · exact fun later hlater => hfront later (List.mem_cons_of_mem place hlater)

end Replacing

/-- The loop of a pattern patch makes such a run. -/
theorem SkipTable.replace_of_replacing {table : SkipTable} (hsound : table.Sound) {offset : Int}
    {replacement before after : Bytes} {limit start : Nat} {places : List Nat}
    {result : Except WriteFailure Unit}
    (h : Replacing table.pattern offset replacement limit start before places result after)
    (count : Nat) :
    table.replace offset replacement limit count start before =
      (result.map fun _ => count + places.length, after) := by
  induction h generalizing count with
  | spent => rfl
  | @done limit start image hnone =>
    cases limit with
    | zero => rfl
    | succ limit =>
      rw [replace, (search_eq_none_iff hsound).2 hnone]
      rfl
  | refused hleast hpos =>
    rw [replace, (search_eq_some_iff hsound).2 hleast]
    dsimp only
    rw [hpos]
    rfl
  | next hleast hpos _ ih =>
    rw [replace, (search_eq_some_iff hsound).2 hleast]
    dsimp only
    rw [hpos]
    dsimp only
    rw [ih, List.length_cons, Nat.add_assoc, Nat.add_comm 1]

namespace Bytes

variable {image pattern replacement after : Bytes} {offset : Int} {limit : Nat}
  {places : List Nat} {result : Except WriteFailure Unit}

theorem replace_of_replacing (hpattern : 0 < pattern.size)
    (h : Replacing pattern offset replacement limit 0 image places result after) :
    image.replace pattern offset replacement limit =
      (result.map fun _ => places.length, after) := by
  obtain ⟨table, htable, rfl, hsound⟩ := exists_table hpattern
  rw [replace, htable]
  dsimp only
  rw [table.replace_of_replacing hsound h 0]
  simp

/-- Greedy replacement, where each write ends within its occurrence and the first one does not
start in front of the image. -/
theorem replace_of_leftmost (hpattern : 0 < pattern.size)
    (hshape : offset + replacement.size ≤ pattern.size) (hsize : image.size < positionLimit)
    (h : Leftmost image pattern 0 places)
    (hfirst : ∀ first ∈ places.head?, 0 ≤ (first : Int) + offset) :
    image.replace pattern offset replacement limit =
      (.ok (min limit places.length),
        image.replacedAt (places.take limit) offset replacement) := by
  have hfront : ∀ place ∈ places, 0 ≤ (place : Int) + offset := by
    intro place hplace
    cases h with
    | done => cases hplace
    | next hleast hrest =>
      have hstart := hfirst _ rfl
      rcases List.mem_cons.1 hplace with rfl | hlater
      · exact hstart
      · have hbehind := (hrest.occursAt hlater).1
        omega
  rw [replace_of_replacing hpattern (.of_leftmost hshape hsize h hfront), List.length_take]
  rfl

end Bytes

namespace PatternPatch

variable {patch : PatternPatch} {image : Bytes}

/-- A required patch fails for want of its target only where the target is not there. -/
theorem require_of_occursAt {place : Nat} (hpattern : 0 < patch.pattern.size)
    (hlimit : 0 < patch.limit) (h : OccursAt image patch.pattern place) :
    (patch.require image).result ≠ .error (.failed (.missing patch.name)) := by
  obtain ⟨places, result, after, hrun⟩ :=
    Replacing.exists_run hpattern patch.offset patch.replacement patch.limit 0 image
  have hreplace := Bytes.replace_of_replacing hpattern hrun
  cases result with
  | error err =>
    unfold require
    rw [Run.bind_of_eq_error (apply_of_refused hreplace)]
    exact nofun
  | ok =>
    have hne : places.length ≠ 0 := by
      generalize patch.limit = limit at hrun hlimit
      cases hrun with
      | spent => exact absurd hlimit (Nat.lt_irrefl 0)
      | done hnone => exact absurd h (hnone place (Nat.zero_le place))
      | next => exact Nat.succ_ne_zero _
    unfold require
    rw [Run.bind_apply, apply_of_replace hreplace]
    dsimp only [Run.andThen]
    rw [if_neg hne]
    exact nofun

/-- With `places` the occurrences of the pattern in the image as it was: where the writes of a patch
end within their occurrence, the patch changes nothing if it has no occurrence to write for, fails
without a change if the first write would start in front of the image, and else writes for the
first `limit` of them. A required patch that may write fails for want of its target just where the
pattern is not there, and then changes nothing. Whatever the writes, a patch makes them for
occurrences that lie one behind the other, so there are no more than fit the image. Positions in an
image are 64 bits wide, and its size is one of them. -/
theorem replaces_greedily (patch : PatternPatch) (image : Bytes)
    (hpattern : 0 < patch.pattern.size) (hsize : image.size < positionLimit) :
    ∃ places, Leftmost image patch.pattern 0 places ∧
      (∀ other, Leftmost image patch.pattern 0 other → other = places) ∧
      (patch.offset + patch.replacement.size ≤ patch.pattern.size →
        (patch.limit = 0 ∨ places = [] →
          image.replace patch.pattern patch.offset patch.replacement patch.limit =
            (.ok 0, image)) ∧
        (∀ first ∈ places.head?, 0 < patch.limit → (first : Int) + patch.offset < 0 →
          image.replace patch.pattern patch.offset patch.replacement patch.limit =
            (.error ⟨first, patch.offset, patch.replacement.size, image.size⟩, image)) ∧
        (∀ first ∈ places.head?, 0 ≤ (first : Int) + patch.offset →
          image.replace patch.pattern patch.offset patch.replacement patch.limit =
            (.ok (min patch.limit places.length),
              image.replacedAt (places.take patch.limit) patch.offset patch.replacement))) ∧
      (0 < patch.limit →
        ((patch.require image).result = .error (.failed (.missing patch.name)) ↔
          ∀ place, ¬OccursAt image patch.pattern place)) ∧
      ((∀ place, ¬OccursAt image patch.pattern place) → (patch.require image).state = image) ∧
      ∃ written result after,
        Replacing patch.pattern patch.offset patch.replacement patch.limit 0 image written result
          after ∧
        image.replace patch.pattern patch.offset patch.replacement patch.limit =
          (result.map fun _ => written.length, after) ∧
        written.length ≤ min patch.limit (image.size / patch.pattern.size) := by
  obtain ⟨places, hplaces⟩ := Leftmost.exists_places hpattern image 0
  obtain ⟨written, result, after, hrun⟩ :=
    Replacing.exists_run hpattern patch.offset patch.replacement patch.limit 0 image
  have hmissing : (∀ place, ¬OccursAt image patch.pattern place) →
      patch.require image =
        ⟨.error (.failed (.missing patch.name)), image, [.patternPatched patch.name 0]⟩ :=
    fun hnowhere => require_of_none ((Bytes.occurrence?_eq_none_iff hpattern).2 hnowhere)
  refine ⟨places, hplaces, fun _ hother => hplaces.unique hother,
    fun hshape => ⟨fun hidle => ?idle, fun first hfirst hlimit hneg => ?refused,
      fun first hfirst hstart => ?replaced⟩,
    fun hlimit => ⟨fun hfailed place hocc => ?found, fun hnowhere => ?missing⟩,
    fun hnowhere => ?unchanged,
    written, result, after, hrun, Bytes.replace_of_replacing hpattern hrun, ?bounded⟩
  case idle => exact Bytes.replace_of_replacing hpattern (.of_idle hplaces hidle)
  case refused =>
    exact Bytes.replace_of_replacing hpattern (.of_neg hplaces hfirst hlimit hneg)
  case replaced =>
    refine Bytes.replace_of_leftmost hpattern hshape hsize hplaces fun other hother => ?_
    rw [hfirst] at hother
    obtain rfl := Option.some.inj hother
    exact hstart
  case found => exact require_of_occursAt hpattern hlimit hocc hfailed
  case missing => exact congrArg Outcome.result (hmissing hnowhere)
  case unchanged => exact congrArg Outcome.state (hmissing hnowhere)
  case bounded =>
    have hfits : written.length ≤ image.size / patch.pattern.size :=
      (Nat.le_div_iff_mul_le hpattern).2 hrun.length_mul_le
    exact Nat.le_min.2 ⟨hrun.length_le_limit, hfits⟩

/-- Writes from the byte in front of a pair to its first byte. -/
def pairPatch : PatternPatch where
  name := "pair"
  pattern := #[1, 2]
  offset := -1
  replacement := #[8, 9]
  limit := 2

/-- The second write overlaps the window of the first one, and the third pair is kept. -/
theorem replaces_greedily_pairs :
    (0 < pairPatch.pattern.size ∧ Array.size #[0, 1, 2, 0, 1, 2, 1, 2] < positionLimit) ∧
      pairPatch.offset + pairPatch.replacement.size ≤ pairPatch.pattern.size ∧
      Bytes.replace #[0, 1, 2, 0, 1, 2, 1, 2] pairPatch.pattern pairPatch.offset
        pairPatch.replacement pairPatch.limit = (.ok 2, #[8, 9, 2, 8, 9, 2, 1, 2]) := by
  have hlimit : Array.size #[0, 1, 2, 0, 1, 2, 1, 2] < positionLimit := by decide
  obtain ⟨places, -, hunique, hgreedy, -⟩ :=
    replaces_greedily pairPatch #[0, 1, 2, 0, 1, 2, 1, 2] (by decide) hlimit
  have hleast : ∀ start found, Bytes.occurrenceFrom? #[0, 1, 2, 0, 1, 2, 1, 2] pairPatch.pattern
      start = some found → IsLeast {place | start ≤ place ∧
        OccursAt #[0, 1, 2, 0, 1, 2, 1, 2] pairPatch.pattern place} found :=
    fun _ _ => (Bytes.occurrenceFrom?_eq_some_iff (by decide)).1
  have hplaces : [1, 4, 6] = places := by
    refine hunique _ (.next (hleast 0 1 (by decide +kernel)) (.next (hleast 3 4 (by decide +kernel))
      (.next (hleast 6 6 (by decide +kernel)) (.done fun place hplace hocc => ?_))))
    have hfits : place + 2 ≤ 8 := hocc.1
    exact absurd (Nat.le_trans (Nat.add_le_add_right hplace 2) hfits) (by decide)
  obtain ⟨-, -, hreplaced⟩ := hgreedy (by decide)
  subst hplaces
  refine ⟨⟨by decide, hlimit⟩, by decide, (hreplaced 1 rfl (by decide)).trans ?_⟩
  decide

end PatternPatch
end BootStage
