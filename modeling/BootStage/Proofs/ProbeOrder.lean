import BootStage.Proofs.SettledNands
/-!
# The order of probing

Where the image of a slot may start follows from its model and from the size of the built-in NAND,
and at each place its header is tried in one sector or in two. A search takes the first header it
meets in this order, for the slot asked for and then for the first slot. Sectors are counted here
without a bound: as long as the headers tried have sector numbers of 32 bits, the search computes
these very numbers.
-/

namespace BootStage

/-- A sector tried for a header, with the slot it is tried for and the sector that is added to
redirected accesses if the header is there. -/
structure Attempt where
  slot : Nat
  redirect : Nat
  header : Nat
  deriving DecidableEq, Repr

def ImageLocation.attempt (location : ImageLocation) : Attempt :=
  ⟨location.slot, location.redirect.toNat, location.header.toNat⟩

theorem ImageLocation.attempt_inj {location other : ImageLocation}
    (h : location.attempt = other.attempt) : location = other := by
  cases location
  cases other
  simp only [ImageLocation.attempt, Attempt.mk.injEq, UInt32.toNat_inj] at h
  obtain ⟨rfl, rfl, rfl⟩ := h
  rfl

namespace CardImage

/-- A place where an image may start, on a card of any size. -/
structure Place where
  start : Nat
  trailingHeader : Bool
  deriving DecidableEq, Repr

def smallest (model : Model) : Nat :=
  model.choose 0x1D8000 0x26E000

def wideSpacing (builtIn : Nat) : Nat :=
  if 0x200000 < builtIn then 0x400000 else 0x200000

def wholeUnits (sectors : Nat) : Nat :=
  (sectors + 0x1FFF) / 0x2000 * 0x2000

def places (slot : Nat) (model : Model) (builtIn : Nat) : List Place :=
  if slot = 1 then [⟨0, true⟩]
  else
    [⟨(slot - 1) * wideSpacing builtIn, true⟩, ⟨(slot - 1) * wholeUnits (builtIn + 1), true⟩,
      ⟨(slot - 1) * smallest model, false⟩]

def Place.attempts (place : Place) (slot builtIn : Nat) : List Attempt :=
  ⟨slot, place.start + 1, place.start + 1⟩ ::
    if place.trailingHeader then [⟨slot, place.start, place.start + builtIn⟩] else []

/-- The place leaves room for the smallest image in front of the partition. -/
def Place.Eligible (place : Place) (model : Model) (partitionStart : Nat) : Prop :=
  place.start + smallest model ≤ partitionStart

instance (place : Place) (model : Model) (partitionStart : Nat) :
    Decidable (place.Eligible model partitionStart) :=
  inferInstanceAs (Decidable (_ ≤ _))

def attempts (slot : Nat) (model : Model) (builtIn partitionStart : Nat) : List Attempt :=
  (places slot model builtIn).flatMap fun place =>
    if place.Eligible model partitionStart then place.attempts slot builtIn else []

def firstHit (image : SectorImage) (slot : Nat) (model : Model) (partitionStart : Nat) :
    Option Attempt :=
  (attempts slot model image.builtInSectors.toNat partitionStart).find? fun attempt =>
    isHeaderOn image (.ofNat attempt.header)

/-- All sectors that may be tried for `slot` have numbers of 32 bits. -/
def Numbered (slot : Nat) (model : Model) (builtIn : Nat) : Prop :=
  ∀ place ∈ places slot model builtIn, ∀ attempt ∈ place.attempts slot builtIn,
    attempt.header < 0x100000000

/-! ## Places without a bound -/

theorem wholeUnits_lt (sectors : Nat) : wholeUnits sectors < sectors + 0x2000 := by
  unfold wholeUnits
  omega

theorem smallest_le (model : Model) : smallest model ≤ 0x26E000 := by
  cases model <;> decide

theorem toNat_minSectors (model : Model) : (minSectors model).toNat = smallest model := by
  cases model <;> rfl

theorem toNat_fixedSpacing (builtIn : UInt32) :
    (fixedSpacing builtIn).toNat = wideSpacing builtIn.toNat := by
  have hbound : (0x200000 : UInt32) < builtIn ↔ 0x200000 < builtIn.toNat := UInt32.lt_iff_toNat_lt
  unfold fixedSpacing wideSpacing
  by_cases hlarge : 0x200000 < builtIn.toNat
  · rw [if_pos (hbound.2 hlarge), if_pos hlarge]
    rfl
  · rw [if_neg (mt hbound.1 hlarge), if_neg hlarge]
    rfl

/-- The mask clears the bits below a unit. -/
theorem toNat_masked (n : UInt32) : (n &&& ~~~0x1FFF).toNat = n.toNat / 0x2000 * 0x2000 := by
  have hmask : (~~~0x1FFF : UInt32).toNat = 2 ^ 13 * (2 ^ 19 - 1) := by decide
  have hunits : n.toNat / 0x2000 * 0x2000 = 2 ^ 13 * (n.toNat >>> 13) := by
    rw [Nat.shiftRight_eq_div_pow]
    omega
  rw [UInt32.toNat_and, hmask, hunits]
  apply Nat.eq_of_testBit_eq
  intro i
  rw [Nat.testBit_and, Nat.testBit_two_pow_mul, Nat.testBit_two_pow_mul,
    Nat.testBit_two_pow_sub_one, Nat.testBit_shiftRight]
  by_cases hlow : 13 ≤ i
  · rw [Nat.add_sub_cancel' hlow, decide_eq_true hlow, Bool.true_and, Bool.true_and]
    by_cases hhigh : i - 13 < 19
    · rw [decide_eq_true hhigh, Bool.and_true]
    · have hclear : n.toNat.testBit i = false := Nat.testBit_lt_two_pow
        (Nat.lt_of_lt_of_le n.toNat_lt (Nat.pow_le_pow_right (by decide) (by omega)))
      rw [hclear, Bool.false_and]
  · rw [decide_eq_false hlow, Bool.false_and, Bool.false_and, Bool.and_false]

/-- Rounding up wraps just as its result does. -/
theorem toNat_roundedUp (sectors : UInt32) :
    (roundedUp (sectors + 1)).toNat = wholeUnits (sectors.toNat + 1) % 0x100000000 := by
  rw [roundedUp, toNat_masked, UInt32.toNat_add, UInt32.toNat_add]
  unfold wholeUnits
  change ((sectors.toNat + 1) % 0x100000000 + 0x1FFF) % 0x100000000 / 0x2000 * 0x2000 = _
  omega

def Place.candidate (place : Place) : Candidate :=
  ⟨.ofNat place.start, place.trailingHeader⟩

theorem mul_ahead {spacing : UInt32} {distance : Nat}
    (h : spacing.toNat = distance % 0x100000000) (ahead : Nat) :
    spacing * .ofNat ahead = UInt32.ofNat (ahead * distance) := by
  apply UInt32.toNat_inj.1
  rw [UInt32.toNat_mul, UInt32.toNat_ofNat', UInt32.toNat_ofNat', h, Nat.mul_comm ahead]
  exact (Nat.mul_mod _ _ _).symm

theorem candidates_eq (slot : Nat) (model : Model) (builtIn : UInt32) :
    candidates slot model builtIn = (places slot model builtIn.toNat).map Place.candidate := by
  unfold candidates places
  split
  · rfl
  · have hsmallest : smallest model < 0x100000000 := by cases model <;> decide
    have hwide : wideSpacing builtIn.toNat < 0x100000000 := by
      unfold wideSpacing
      split <;> decide
    dsimp only
    rw [mul_ahead ((toNat_fixedSpacing builtIn).trans (Nat.mod_eq_of_lt hwide).symm),
      mul_ahead (toNat_roundedUp builtIn),
      mul_ahead ((toNat_minSectors model).trans (Nat.mod_eq_of_lt hsmallest).symm)]
    rfl

/-- Where the headers have numbers of 32 bits, so has the end of the smallest image. -/
theorem Numbered.end_lt {slot : Nat} {model : Model} {builtIn : Nat}
    (h : Numbered slot model builtIn) (hslot : slot ≤ 7) {place : Place}
    (hplace : place ∈ places slot model builtIn) :
    place.start + smallest model < 0x100000000 := by
  have hsmallest := smallest_le model
  have hheader := h place hplace
  unfold places at hplace
  split at hplace
  · obtain rfl := List.mem_singleton.1 hplace
    dsimp only
    omega
  · have hahead : ∀ distance, (slot - 1) * distance ≤ 6 * distance :=
      fun distance => Nat.mul_le_mul_right distance (by omega)
    rcases List.mem_cons.1 hplace with rfl | hrest
    · have hwide : wideSpacing builtIn ≤ 0x400000 := by
        unfold wideSpacing
        split <;> decide
      have hstart := hahead (wideSpacing builtIn)
      dsimp only
      omega
    rcases List.mem_cons.1 hrest with rfl | hlast
    · have htrailing := hheader _ (List.mem_cons_of_mem _ List.mem_cons_self)
      have hstart := hahead (wholeUnits (builtIn + 1))
      have hunits := wholeUnits_lt (builtIn + 1)
      dsimp only at htrailing ⊢
      -- An image of the built-in size ends behind the smallest one, or all is small.
      omega
    · obtain rfl := List.mem_singleton.1 hlast
      have hstart := hahead (smallest model)
      dsimp only
      omega

/-! ## Searches in order -/

variable {image : SectorImage} {slot : Nat} {model : Model} {place : Place}

theorem toNat_ofNat_add {start : Nat} {distance : UInt32}
    (h : start + distance.toNat < 0x100000000) :
    (UInt32.ofNat start + distance).toNat = start + distance.toNat := by
  rw [UInt32.toNat_add, UInt32.toNat_ofNat']
  change (start % 0x100000000 + distance.toNat) % 0x100000000 = _
  omega

theorem ofNat_add_toNat (start : Nat) (distance : UInt32) :
    UInt32.ofNat (start + distance.toNat) = .ofNat start + distance := by
  rw [UInt32.ofNat_add, UInt32.ofNat_toNat]

theorem probeOn_candidate (partitionStart : UInt32)
    (hend : place.start + smallest model < 0x100000000)
    (hnumbered : ∀ attempt ∈ place.attempts slot image.builtInSectors.toNat,
      attempt.header < 0x100000000) :
    (probeOn image slot model partitionStart place.candidate).map ImageLocation.attempt =
      (if place.Eligible model partitionStart.toNat then
        place.attempts slot image.builtInSectors.toNat else []).find?
          fun attempt => isHeaderOn image (.ofNat attempt.header) := by
  obtain ⟨start, trailingHeader⟩ := place
  have hfits : partitionStart < UInt32.ofNat start + minSectors model ↔
      ¬Place.Eligible ⟨start, trailingHeader⟩ model partitionStart.toNat := by
    rw [UInt32.lt_iff_toNat_lt, toNat_ofNat_add (by rw [toNat_minSectors]; exact hend),
      toNat_minSectors, Place.Eligible, Nat.not_le]
  change (probeOn image slot model partitionStart ⟨.ofNat start, trailingHeader⟩).map _ = _
  unfold probeOn
  dsimp only
  by_cases heligible : Place.Eligible ⟨start, trailingHeader⟩ model partitionStart.toNat
  · have hfirst : (UInt32.ofNat start + 1).toNat = start + 1 :=
      toNat_ofNat_add (hnumbered _ List.mem_cons_self)
    have htried : UInt32.ofNat (start + 1) = .ofNat start + 1 := ofNat_add_toNat start 1
    rw [if_neg (not_not_intro heligible ∘ hfits.1), if_pos heligible, Place.attempts,
      List.find?_cons, htried]
    cases isHeaderOn image (.ofNat start + 1) with
    | true => rw [if_pos rfl, Option.map_some, ImageLocation.attempt, hfirst]
    | false =>
      rw [if_neg nofun]
      cases trailingHeader with
      | false => rfl
      | true =>
        have hlast := toNat_ofNat_add (hnumbered _ (List.mem_cons_of_mem _ List.mem_cons_self))
        have hstart : (UInt32.ofNat start).toNat = start :=
          UInt32.toNat_ofNat_of_lt' (Nat.lt_of_succ_lt (hnumbered _ List.mem_cons_self))
        rw [if_pos rfl, if_pos rfl, List.find?_singleton, ofNat_add_toNat]
        cases isHeaderOn image (.ofNat start + image.builtInSectors) with
        | true => rw [if_pos rfl, if_pos rfl, Option.map_some, ImageLocation.attempt, hstart, hlast]
        | false => rfl
  · rw [if_pos (hfits.2 heligible), if_neg heligible]
    rfl

theorem searchOn_eq (hnumbered : Numbered slot model image.builtInSectors.toNat)
    (hslot : slot ≤ 7) (partitionStart : UInt32) :
    (searchOn image slot model partitionStart).map ImageLocation.attempt =
      firstHit image slot model partitionStart.toNat := by
  have hprobe : ∀ place ∈ places slot model image.builtInSectors.toNat, _ := fun place hplace =>
    probeOn_candidate partitionStart (hnumbered.end_lt hslot hplace) (hnumbered place hplace)
  unfold searchOn firstHit attempts
  rw [candidates_eq]
  revert hprobe
  generalize places slot model image.builtInSectors.toNat = list
  intro hprobe
  induction list with
  | nil => rfl
  | cons place rest ih =>
    have hfirst := hprobe place List.mem_cons_self
    rw [List.map_cons, List.findSome?_cons, List.flatMap_cons, List.find?_append, ← hfirst]
    cases probeOn image slot model partitionStart place.candidate with
    | some found => rfl
    | none => exact ih fun other hother => hprobe other (List.mem_cons_of_mem _ hother)

/-- The first slot has one place, whose headers always have numbers of 32 bits. -/
theorem numbered_first (model : Model) (builtIn : UInt32) :
    Numbered 1 model builtIn.toNat := by
  intro place hplace attempt hattempt
  obtain rfl := List.mem_singleton.1 hplace
  have hbuiltIn := builtIn.toNat_lt
  obtain rfl | htrailing := List.mem_cons.1 hattempt
  · decide
  · obtain rfl := List.mem_singleton.1 htrailing
    dsimp only
    omega

/-- With a partition table, the first hit of the slot counts, or else that of slot 1. -/
theorem locateOn_eq (hnumbered : Numbered slot model image.builtInSectors.toNat)
    (hslot : slot ≤ 7) {table : Sector} (htable : image.sectors 0 = some table) :
    (locateOn image slot model).map ImageLocation.attempt =
      (firstHit image slot model (Bytes.word table.toArray partitionStartPos).toNat).or
        (firstHit image 1 model (Bytes.word table.toArray partitionStartPos).toNat) := by
  rw [locateOn, htable]
  dsimp only
  rw [Option.map_or, searchOn_eq hnumbered hslot,
    searchOn_eq (numbered_first model image.builtInSectors) (by decide)]

theorem isHeaderOn_iff {sector : UInt32} :
    isHeaderOn image sector = true ↔ ∃ content, image.sectors sector = some content ∧
      Bytes.window content.toArray 0x100 4 = .ofAscii "NCSD" := by
  unfold isHeaderOn
  cases image.sectors sector with
  | none => simp
  | some content =>
    refine ⟨fun h => ⟨content, rfl, of_decide_eq_true h⟩, ?_⟩
    rintro ⟨_, hcontent, hmagic⟩
    obtain rfl := Option.some.inj hcontent
    exact decide_eq_true hmagic

theorem isHeaderOn_of_searchOn {partitionStart : UInt32} {found : ImageLocation}
    (h : searchOn image slot model partitionStart = some found) :
    isHeaderOn image found.header = true := by
  obtain ⟨candidate, -, hprobe⟩ := List.exists_of_findSome?_eq_some h
  unfold probeOn at hprobe
  dsimp only at hprobe
  split at hprobe
  · cases hprobe
  split at hprobe
  · next hlead =>
    obtain rfl := Option.some.inj hprobe
    exact hlead
  split at hprobe
  · split at hprobe
    · next hlast =>
      obtain rfl := Option.some.inj hprobe
      exact hlast
    · cases hprobe
  · cases hprobe

variable {δ ε : Type} [Card δ] {good : δ → Prop}

/-- On a card that reads the same again, a search comes to the first hit of the slot asked for, or
else to the first hit of slot 1. Without a partition table it comes to nothing. -/
theorem locate_takes_first_hit (hcard : Card.ReadsAs image good) (hslot : 1 ≤ slot ∧ slot ≤ 7)
    (hnumbered : Numbered slot model image.builtInSectors.toNat) :
    ∃ location,
      Run.Yields good good (locate slot model : Run Event ε δ _) location ∧
      (image.sectors 0 = none → location = none) ∧
      (∀ table, image.sectors 0 = some table →
        let partitionStart := (Bytes.word table.toArray 0x1C6).toNat
        location.map ImageLocation.attempt =
          (firstHit image slot model partitionStart).or
            (firstHit image 1 model partitionStart)) ∧
      ∀ found, location = some found →
        (found.slot = slot ∨ found.slot = 1) ∧
          ∃ content, image.sectors found.header = some content ∧
            Bytes.window content.toArray 0x100 4 = .ofAscii "NCSD" := by
  refine ⟨locateOn image slot model, yields_locate hcard slot model, fun hnone => ?missing,
    fun table htable => locateOn_eq hnumbered hslot.2 htable, fun found hfound => ?found⟩
  case missing => rw [locateOn, hnone]
  case found =>
    unfold locateOn at hfound
    split at hfound
    · cases hfound
    · rcases Option.or_eq_some_iff.1 hfound with hasked | ⟨-, hfirst⟩
      · exact ⟨.inl (slot_of_searchOn hasked), isHeaderOn_iff.1 (isHeaderOn_of_searchOn hasked)⟩
      · exact ⟨.inr (slot_of_searchOn hfirst), isHeaderOn_iff.1 (isHeaderOn_of_searchOn hfirst)⟩

/-! ## Cards with given headers -/

/-- A card with these headers and no other, and the start of its partition in sector 0. -/
def headed (builtInSectors partitionStart : UInt32) (headers : List UInt32) : SectorImage where
  builtInSectors
  sectors := fun sector => some <|
    if sector = 0 then sectorWith partitionStartPos (.ofWord partitionStart)
    else if sector ∈ headers then sectorWith magicPos magic
    else sectorWith 0 #[]

theorem window_sectorWith {pos : Nat} {data : Bytes} (h : pos + data.size ≤ 0x200) :
    Bytes.window (sectorWith pos data).toArray pos data.size = data := by
  rw [Bytes.window, sectorWith]
  exact Bytes.extract_overwrite _ pos data (by rw [Array.size_replicate]; exact h)

theorem word_sectorWith {pos : Nat} (value : UInt32) (h : pos + 4 ≤ 0x200) :
    Bytes.word (sectorWith pos (.ofWord value)).toArray pos = value := by
  have hsize : pos + 4 ≤ (Array.replicate 0x200 (0 : UInt8)).size := by
    rw [Array.size_replicate]
    exact h
  rw [sectorWith, Bytes.word_overwrite _ pos value hsize]

theorem window_sectorWith_ne {pos : Nat} {data : Bytes}
    (h : pos + data.size ≤ 0x100 ∨ 0x100 < pos) :
    Bytes.window (sectorWith pos data).toArray 0x100 4 ≠ .ofAscii "NCSD" := by
  intro hmagic
  have hbyte : (Bytes.window (sectorWith pos data).toArray 0x100 4)[0]? = some 0x4E := by
    rw [hmagic]
    rfl
  have hblank : (sectorWith pos data).toArray[0x100 + 0]? = some 0 := by
    rw [sectorWith, Bytes.getElem?_overwrite, if_neg (by omega), Array.getElem?_replicate]
    rfl
  rw [Bytes.getElem?_window _ _ (by decide), hblank] at hbyte
  exact absurd hbyte (by decide)

theorem isHeaderOn_headed (builtInSectors partitionStart : UInt32) (headers : List UInt32)
    (sector : UInt32) :
    isHeaderOn (headed builtInSectors partitionStart headers) sector =
      decide (sector ≠ 0 ∧ sector ∈ headers) := by
  rw [Bool.eq_iff_iff, isHeaderOn_iff, decide_eq_true_iff]
  unfold headed
  dsimp only
  constructor
  · rintro ⟨content, hcontent, hmagic⟩
    obtain rfl := Option.some.inj hcontent
    split at hmagic
    · exact absurd hmagic (window_sectorWith_ne (.inr (by decide)))
    · next hsector =>
      split at hmagic
      · next hheader => exact ⟨hsector, hheader⟩
      · exact absurd hmagic (window_sectorWith_ne (.inl (by decide)))
  · rintro ⟨hsector, hheader⟩
    rw [if_neg hsector, if_pos hheader]
    have hmagic := @window_sectorWith magicPos magic (by decide)
    exact ⟨_, rfl, hmagic⟩

theorem table_headed (builtInSectors partitionStart : UInt32) (headers : List UInt32) :
    ∃ table, (headed builtInSectors partitionStart headers).sectors 0 = some table ∧
      Bytes.word table.toArray 0x1C6 = partitionStart := by
  have hword := @word_sectorWith partitionStartPos partitionStart (by decide)
  exact ⟨_, congrArg some (if_pos rfl), hword⟩

theorem firstHit_headed (builtInSectors partitionStart : UInt32) (headers : List UInt32)
    (slot : Nat) (model : Model) (start : Nat) :
    firstHit (headed builtInSectors partitionStart headers) slot model start =
      (attempts slot model builtInSectors.toNat start).find? fun attempt =>
        decide (UInt32.ofNat attempt.header ≠ 0 ∧ UInt32.ofNat attempt.header ∈ headers) := by
  simp only [firstHit, isHeaderOn_headed]
  rfl

theorem locateOn_headed {builtInSectors partitionStart : UInt32} {headers : List UInt32}
    {found : ImageLocation} (hnumbered : Numbered slot model builtInSectors.toNat)
    (hslot : slot ≤ 7)
    (hhit : (firstHit (headed builtInSectors partitionStart headers) slot model
      partitionStart.toNat).or (firstHit (headed builtInSectors partitionStart headers) 1 model
        partitionStart.toNat) = some found.attempt) :
    locateOn (headed builtInSectors partitionStart headers) slot model = some found := by
  obtain ⟨table, htable, hword⟩ := table_headed builtInSectors partitionStart headers
  have hlocation := locateOn_eq hnumbered hslot htable
  change Bytes.word table.toArray partitionStartPos = partitionStart at hword
  rw [hword, hhit] at hlocation
  obtain ⟨other, hother, hsame⟩ := Option.map_eq_some_iff.1 hlocation
  rw [hother, ImageLocation.attempt_inj hsame]

/-- A card with an image in slot 1, whose header is in the last sector, and none in slot 3. -/
def firstImageOnly : SectorImage :=
  headed 0x1D7800 0x800000 [0x1D7800]

theorem numbered_firstImageOnly : Numbered 3 .old firstImageOnly.builtInSectors.toNat := by
  change Numbered 3 .old 0x1D7800
  unfold Numbered
  decide

/-- All places of slot 3 are tried in vain. -/
theorem locate_takes_first_hit_trailing :
    Card.ReadsAs firstImageOnly (· = firstImageOnly) ∧
      Numbered 3 .old firstImageOnly.builtInSectors.toNat ∧
      Run.Yields (· = firstImageOnly) (· = firstImageOnly)
        (locate 3 .old : Run Event BootFailure SectorImage _) (some ⟨1, 0, 0x1D7800⟩) := by
  have hcard := SectorImage.readsAs firstImageOnly
  obtain ⟨location, hyields, -, hfirst, -⟩ :=
    locate_takes_first_hit (ε := BootFailure) hcard (by decide) numbered_firstImageOnly
  obtain ⟨table, htable, hword⟩ := table_headed 0x1D7800 0x800000 [0x1D7800]
  have hlocation := hfirst table htable
  dsimp only at hlocation
  rw [hword, firstImageOnly, firstHit_headed, firstHit_headed] at hlocation
  have hhit : location.map ImageLocation.attempt = some ⟨1, 0, 0x1D7800⟩ :=
    hlocation.trans (by decide)
  obtain ⟨found, rfl, hfound⟩ := Option.map_eq_some_iff.1 hhit
  obtain rfl : found = ⟨1, 0, 0x1D7800⟩ := ImageLocation.attempt_inj hfound
  exact ⟨hcard, numbered_firstImageOnly, hyields⟩

end CardImage
end BootStage
