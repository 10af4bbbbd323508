import BootStage.Bytes.Access
import BootStage.Proofs.RunSafety
/-!
# Accesses are exact

The tests that are made on machine words come to bounds over the integers, up to both ends of the
range of words. A write is made just when it lies inside its image, and then changes the bytes under
it alone; one that is refused changes nothing.
-/

namespace BootStage

/-! ## Sums of words -/

namespace Position

theorem add_lt_iff (start len : Position) :
    start + len < start ↔ positionLimit ≤ start.toNat + len.toNat := by
  have hstart := start.toNat_lt
  have hlen := len.toNat_lt
  rw [UInt64.lt_iff_toNat_lt, UInt64.toNat_add, positionLimit]
  omega

/-- What an offset adds by its bit pattern is the offset, or for one below zero its complement. -/
theorem toNat_toUInt64_cases (offset : Int64) :
    (0 ≤ offset.toInt ∧ (offset.toUInt64.toNat : Int) = offset.toInt) ∨
      (offset.toInt < 0 ∧ (offset.toUInt64.toNat : Int) = offset.toInt + positionLimit) := by
  have hpattern : offset.toBitVec.toNat = offset.toUInt64.toNat := rfl
  have hlt := offset.toBitVec.isLt
  rw [← offset.toInt_toBitVec, BitVec.toInt_eq_toNat_cond, positionLimit]
  split <;> omega

theorem wraps_iff (base : Position) (offset : Int64) :
    (base + offset.toUInt64 < base ↔ offset < 0) ↔
      0 ≤ (base.toNat : Int) + offset.toInt ∧
        ((base.toNat : Int) + offset.toInt).toNat < positionLimit := by
  have hbase : base.toNat < positionLimit := base.toNat_lt
  have hlt : offset.toUInt64.toNat < positionLimit := offset.toUInt64.toNat_lt
  have hsign : offset < 0 ↔ offset.toInt < 0 := Int64.lt_iff_toInt_lt
  rw [add_lt_iff, hsign]
  rcases toNat_toUInt64_cases offset with ⟨habove, hadds⟩ | ⟨hbelow, hadds⟩ <;> omega

theorem toNat_displaced? (base : Position) (offset : Int64) :
    (base.displaced? offset).map UInt64.toNat =
      BootStage.displaced? base.toNat offset.toInt := by
  have hwraps := wraps_iff base offset
  unfold displaced? BootStage.displaced?
  dsimp only
  by_cases hfits : base + offset.toUInt64 < base ↔ offset < 0
  · have hlimit := hwraps.1 hfits
    have hsum : (base + offset.toUInt64).toNat = ((base.toNat : Int) + offset.toInt).toNat := by
      have hbase := base.toNat_lt
      have hmod := UInt64.toNat_add base offset.toUInt64
      have hadds := toNat_toUInt64_cases offset
      rw [positionLimit] at hadds hlimit
      omega
    rw [if_pos hfits, if_pos hlimit, Option.map_some, hsum]
  · rw [if_neg hfits, if_neg (mt hwraps.2 hfits), Option.map_none]

theorem toNat_advanced? (start len : Position) :
    (start.advanced? len).map UInt64.toNat = BootStage.advanced? start.toNat len.toNat := by
  have hsum := UInt64.toNat_add start len
  unfold advanced? BootStage.advanced?
  dsimp only
  by_cases hwraps : start + len < start
  · have hlimit := (add_lt_iff start len).1 hwraps
    rw [if_pos hwraps, if_neg (by omega), Option.map_none]
  · have hlimit := mt (add_lt_iff start len).2 hwraps
    rw [if_neg hwraps, if_pos (by omega), Option.map_some, hsum, Nat.mod_eq_of_lt]
    exact Nat.not_le.1 hlimit

end Position

namespace Bytes

variable {b data : Bytes}

/-! ## Writes in place -/

/-- What a write comes to in place. One that is refused leaves the image as it is. -/
def inPlace (b : Bytes) : Except WriteFailure Bytes → Outcome Empty WriteFailure Bytes Unit
  | .ok after => ⟨.ok (), after, []⟩
  | .error err => ⟨.error (.failed err), b, []⟩

/-- Data is copied onto a range of its length, so the copy never stops the run. -/
theorem copyOnto_apply {start stop : Position} (hstop : stop.toNat = start.toNat + data.size)
    (failure : WriteFailure) :
    copyOnto start stop data failure b =
      inPlace b (if stop.toNat ≤ b.size then .ok (b.overwrite start.toNat data)
        else .error failure) := by
  unfold copyOnto
  rw [Run.bind_of_eq_ok (m := get) (a := b) rfl]
  by_cases hfits : stop.toNat ≤ b.size
  · have hlen : (b.extract start.toNat stop.toNat).size = data.size := by
      rw [Array.size_extract]
      omega
    rw [range?_eq_some (by omega) hfits, if_pos hfits,
      Run.bind_of_eq_ok (m := Run.orFail (some _) _) rfl, if_pos hlen]
    rfl
  · rw [range?_eq_none (by omega), if_neg hfits]
    rfl

/-- Testing one sum of words after the other comes to the write as it is decided on beforehand. -/
theorem store_eq_inPlace (base : Position) (offset : Int64) (hdata : data.size < positionLimit) :
    store base offset data b = inPlace b (b.writeDisplaced base.toNat offset.toInt data) := by
  have hlen : (UInt64.ofNat data.size).toNat = data.size := by
    rw [UInt64.toNat_ofNat']
    exact Nat.mod_eq_of_lt hdata
  unfold store writeDisplaced writeStart
  rw [Run.bind_of_eq_ok (m := get) (a := b) rfl, ← Position.toNat_displaced?]
  cases base.displaced? offset with
  | none => rfl
  | some start =>
    have hsum := Position.toNat_advanced? start (.ofNat data.size)
    rw [hlen] at hsum
    rw [Run.bind_of_eq_ok (m := Run.orFail (some start) _) (a := start) rfl, Option.map_some]
    dsimp only
    rw [← hsum]
    cases hadvanced : start.advanced? (.ofNat data.size) with
    | none => rfl
    | some stop =>
      rw [hadvanced] at hsum
      have hstop := (advanced?_eq_some_iff.1 hsum.symm).1
      rw [Run.bind_of_eq_ok (m := Run.orFail (some stop) _) (a := stop) rfl,
        copyOnto_apply hstop.symm, Option.map_some]
      dsimp only
      split <;> rfl

/-- `after` is the image with `data` from position `first` on, counted over the integers, and with
its own bytes elsewhere. -/
structure Overlaid (b : Bytes) (first : Int) (data after : Bytes) : Prop where
  size_eq : after.size = b.size
  covered : ∀ i k : Nat, (i : Int) = first + k → k < data.size → after[i]? = data[k]?
  kept : ∀ i : Nat, (i : Int) < first ∨ first + data.size ≤ i → after[i]? = b[i]?

theorem overlaid_overwrite {first : Int} {start : Nat} (hstart : (start : Int) = first)
    (hfits : start + data.size ≤ b.size) : Overlaid b first data (b.overwrite start data) := by
  constructor
  case size_eq => exact size_overwrite b start data
  case covered =>
    intro i k hi hk
    have hplace : i - start = k := by omega
    rw [getElem?_overwrite, if_pos (by omega), hplace]
  case kept =>
    intro i hi
    rw [getElem?_overwrite, if_neg (by omega)]

theorem store_cases (base : Position) (offset : Int64) (hb : b.size < positionLimit)
    (hdata : data.size < positionLimit) :
    (∃ start : Nat, (start : Int) = base.toNat + offset.toInt ∧ start + data.size ≤ b.size ∧
        store base offset data b = ⟨.ok (), b.overwrite start data, []⟩) ∨
      (¬(0 ≤ base.toNat + offset.toInt ∧ base.toNat + offset.toInt + data.size ≤ b.size) ∧
        store base offset data b =
          ⟨.error (.failed ⟨base.toNat, offset.toInt, data.size, b.size⟩), b, []⟩) := by
  rw [store_eq_inPlace base offset hdata, writeDisplaced]
  cases hstart : writeStart b.size base.toNat offset.toInt data.size with
  | ok start =>
    obtain ⟨hsum, hfits⟩ := writeStart_eq_ok hstart
    exact .inl ⟨start, hsum, hfits, rfl⟩
  | error err =>
    refine .inr ⟨fun ⟨hfirst, hlast⟩ => ?_, by rw [writeStart_eq_error hstart]; rfl⟩
    -- The write would have been found to start at its first position.
    rw [writeStart_of_fits (Int.toNat_of_nonneg hfirst) (by omega) hb] at hstart
    cases hstart

/-! ## Words -/

theorem writeWord_of_fits {pos : Nat} (value : UInt32) (hfits : pos + 4 ≤ b.size)
    (hb : b.size < positionLimit) :
    b.writeWord pos value = .ok (b.overwrite pos (ofWord value)) := by
  unfold writeWord write writeDisplaced
  rw [size_ofWord, writeStart_of_fits (Int.add_zero _).symm hfits hb]
  rfl

theorem storeWord_eq_inPlace (pos : Position) (value : UInt32) :
    storeWord pos value b = inPlace b (b.writeWord pos.toNat value) := by
  have hsize : (ofWord value).size < positionLimit := by
    rw [size_ofWord]
    decide
  exact store_eq_inPlace pos 0 hsize

theorem loadWord?_eq_word? (b : Bytes) (pos : Position) : b.loadWord? pos = b.word? pos.toNat := by
  unfold loadWord? word?
  by_cases hpos : pos.toNat ≤ b.size
  · have hsize : (b.extract pos.toNat b.size).size = b.size - pos.toNat := by
      rw [Array.size_extract]
      omega
    rw [range?_eq_some hpos (Nat.le_refl _), Option.bind_eq_bind, Option.bind_some, hsize]
    by_cases hfits : pos.toNat + 4 ≤ b.size
    · have hword : word (b.extract pos.toNat b.size) 0 = b.word pos.toNat := by
        refine word_eq_of_byte fun k hk => ?_
        rw [Nat.zero_add, byte, byte, Array.getElem?_extract, if_pos (by omega)]
      rw [if_pos (by omega), if_pos hfits, hword]
    · rw [if_neg (by omega), if_neg hfits]
  · rw [range?, if_neg fun hrange => hpos hrange.1, if_neg (by omega)]
    rfl

theorem loadWord?_overwrite {pos : Position} (value : UInt32) (h : pos.toNat + 4 ≤ b.size) :
    (b.overwrite pos.toNat (ofWord value)).loadWord? pos = some value := by
  rw [loadWord?_eq_word?, word?_eq_some_iff, size_overwrite]
  exact ⟨h, word_overwrite b pos.toNat value h⟩

theorem loadWord?_overwrite_apart {pos : Position} {start : Nat}
    (h : pos.toNat + 4 ≤ start ∨ start + data.size ≤ pos.toNat) :
    (b.overwrite start data).loadWord? pos = b.loadWord? pos := by
  rw [loadWord?_eq_word?, loadWord?_eq_word?, word?, word?, size_overwrite,
    word_overwrite_apart b h]

/-- Where sizes are words, a write is made just when, over the integers, it starts and ends inside
its image. Its bytes are then the data and all others are kept; one that is refused changes nothing.
A word that was written is read back, words beside it read as before, and a word is read wherever
four bytes are left. -/
theorem accesses_exact (hb : b.size < positionLimit) :
    (∀ (base : Position) (offset : Int64) (data : Bytes), data.size < positionLimit →
      let first : Int := base.toNat + offset.toInt
      let out := store base offset data b
      out = inPlace b (b.writeDisplaced base.toNat offset.toInt data) ∧
        (out.result = .ok () ↔ 0 ≤ first ∧ first + data.size ≤ b.size) ∧
        (out.result = .ok () → Overlaid b first data out.state) ∧
        (out.result ≠ .ok () →
          out.result = .error (.failed ⟨base.toNat, offset.toInt, data.size, b.size⟩) ∧
            out.state = b)) ∧
      (∀ (pos : Position) (value : UInt32), pos.toNat + 4 ≤ b.size →
        ∃ after, storeWord pos value b = ⟨.ok (), after, []⟩ ∧
          b.writeWord pos.toNat value = .ok after ∧ after.loadWord? pos = some value ∧
          ∀ other : Position, other.toNat + 4 ≤ pos.toNat ∨ pos.toNat + 4 ≤ other.toNat →
            after.loadWord? other = b.loadWord? other) ∧
      ∀ pos : Position, b.loadWord? pos = b.word? pos.toNat ∧
        (b.loadWord? pos = none ↔ (b.size : Int) - pos.toNat < 4) := by
  refine ⟨fun base offset data hdata => ?_, fun pos value hfits => ?_, fun pos => ?_⟩
  · intro first out
    refine ⟨store_eq_inPlace base offset hdata, ?_⟩
    rcases store_cases base offset hb hdata with ⟨start, hstart, hfits, hstore⟩ | ⟨hmisfit, hstore⟩
    · have hout : out = ⟨.ok (), b.overwrite start data, []⟩ := hstore
      rw [hout]
      exact ⟨iff_of_true rfl (by omega), fun _ => overlaid_overwrite hstart hfits,
        fun hfailed => absurd rfl hfailed⟩
    · have hout : out = ⟨.error (.failed _), b, []⟩ := hstore
      rw [hout]
      exact ⟨iff_of_false nofun hmisfit, nofun, fun _ => ⟨rfl, rfl⟩⟩
  · have hwrite := writeWord_of_fits value hfits hb
    refine ⟨_, ?_, hwrite, loadWord?_overwrite value hfits, fun other hapart => ?_⟩
    · rw [storeWord_eq_inPlace, hwrite]
      rfl
    · exact loadWord?_overwrite_apart (by rwa [size_ofWord])
  · rw [loadWord?_eq_word?, word?_eq_none_iff]
    refine ⟨rfl, ?_⟩
    omega

/-- Moved back as far as an offset goes, position `2 ^ 63` is the first. Behind the last position
there is none, and what would wrap around to the first is refused. -/
theorem accesses_exact_extremes :
    let b : Bytes := #[1, 2, 3, 4, 5, 6, 7, 8, 9]
    let data : Bytes := #[0xA, 0xB]
    let back := store 0x8000000000000000 Int64.minValue data b
    let around := store 0xFFFFFFFFFFFFFFFF 1 data b
    b.size < positionLimit ∧ data.size < positionLimit ∧
      back.result = .ok () ∧ Overlaid b 0 data back.state ∧
      around.result ≠ .ok () ∧ around.state = b ∧
      (1 : Position).toNat + 4 ≤ b.size ∧
      ∃ after, storeWord 1 0xA0B0C0D0 b = ⟨.ok (), after, []⟩ ∧
        after.loadWord? 1 = some 0xA0B0C0D0 ∧ after.loadWord? 5 = b.loadWord? 5 := by
  intro b data back around
  have hb : b.size < positionLimit := by decide
  have hdata : data.size < positionLimit := by decide
  have hword : (1 : Position).toNat + 4 ≤ b.size := by decide
  obtain ⟨hwrites, hwords, -⟩ := accesses_exact hb
  obtain ⟨-, hmade, hlaid, -⟩ := hwrites 0x8000000000000000 Int64.minValue data hdata
  obtain ⟨-, hwraps, -, hkept⟩ := hwrites 0xFFFFFFFFFFFFFFFF 1 data hdata
  obtain ⟨after, hstore, -, hsame, hother⟩ := hwords 1 0xA0B0C0D0 hword
  have hback : back.result = .ok () := hmade.2 (by decide)
  have haround : around.result ≠ .ok () := mt hwraps.1 (by decide)
  exact ⟨hb, hdata, hback, hlaid hback, haround, (hkept haround).2, hword, after, hstore, hsame,
    hother 5 (by decide)⟩

end Bytes
end BootStage
