import BootStage.Config.File
/-!
# Fields of the configuration

Fields do not overlap, so a field that is set reads back as what it was set to and leaves all
others as they were. The file that is written for a configuration is read as that configuration.
-/

namespace BootStage.Config

namespace Field

theorem shift_add_width (field : Field) : field.shift + field.width ≤ 32 := by
  cases field <;> decide

theorem disjoint {field other : Field} (h : field ≠ other) :
    field.shift + field.width ≤ other.shift ∨ other.shift + other.width ≤ field.shift := by
  cases field <;> cases other <;> first | decide | exact absurd rfl h

end Field

theorem testBit_replace (word value shift width i : Nat) (h : value < 1 <<< width) :
    (word - (word >>> shift % (1 <<< width)) <<< shift + value <<< shift).testBit i =
      if shift ≤ i ∧ i < shift + width then value.testBit (i - shift) else word.testBit i := by
  rw [Nat.one_shiftLeft] at h ⊢
  -- Above and below the replaced bits stand `high` and `low`.
  have hword : word = 2 ^ shift * (word >>> shift) + word % 2 ^ shift := by
    rw [Nat.shiftRight_eq_div_pow]
    exact (Nat.div_add_mod word (2 ^ shift)).symm
  have hlow : word % 2 ^ shift < 2 ^ shift := Nat.mod_lt _ (Nat.two_pow_pos _)
  generalize word >>> shift = rest at hword ⊢
  generalize word % 2 ^ shift = low at hword hlow
  have hrest : rest = 2 ^ width * (rest / 2 ^ width) + rest % 2 ^ width :=
    (Nat.div_add_mod rest (2 ^ width)).symm
  have hfield : rest % 2 ^ width < 2 ^ width := Nat.mod_lt _ (Nat.two_pow_pos _)
  generalize rest / 2 ^ width = high at hrest
  generalize rest % 2 ^ width = field at hrest hfield ⊢
  subst hrest
  subst hword
  have hreplaced : 2 ^ shift * (2 ^ width * high + field) + low - field <<< shift +
      value <<< shift = 2 ^ shift * (2 ^ width * high + value) + low := by
    rw [Nat.shiftLeft_eq, Nat.shiftLeft_eq, Nat.mul_add, Nat.mul_add, Nat.mul_comm field,
      Nat.mul_comm value]
    omega
  rw [hreplaced, Nat.testBit_two_pow_mul_add _ hlow, Nat.testBit_two_pow_mul_add _ hlow,
    Nat.testBit_two_pow_mul_add _ h, Nat.testBit_two_pow_mul_add _ hfield]
  by_cases hbelow : i < shift
  · rw [if_pos hbelow, if_pos hbelow, if_neg (by omega)]
  · rw [if_neg hbelow, if_neg hbelow]
    by_cases hin : i - shift < width
    · rw [if_pos hin, if_pos (by omega)]
    · rw [if_neg hin, if_neg hin, if_neg (by omega)]

theorem testBit_get (config : Config) (field : Field) (i : Nat) :
    (config.get field).testBit i =
      (decide (i < field.width) && config.word.toNat.testBit (field.shift + i)) := by
  rw [get, Nat.one_shiftLeft, Nat.testBit_mod_two_pow, Nat.testBit_shiftRight]

theorem testBit_set? {config updated : Config} {field : Field} {value : Nat}
    (h : config.set? field value = some updated) (i : Nat) :
    updated.word.toNat.testBit i =
      if field.shift ≤ i ∧ i < field.shift + field.width then value.testBit (i - field.shift)
      else config.word.toNat.testBit i := by
  unfold set? at h
  split at h
  · next hvalue =>
    obtain rfl := Option.some.inj h
    have hbits := testBit_replace config.word.toNat value field.shift field.width
    have hinside := field.shift_add_width
    rw [get]
    -- No bit is set above the word, so the sum does not wrap.
    have hfits : config.word.toNat -
        (config.word.toNat >>> field.shift % (1 <<< field.width)) <<< field.shift +
          value <<< field.shift < 2 ^ 32 := by
      apply Nat.lt_pow_two_of_testBit
      intro j hj
      rw [hbits j hvalue, if_neg (by omega)]
      exact Nat.testBit_lt_two_pow (Nat.lt_of_lt_of_le config.word.toNat_lt
        (Nat.pow_le_pow_right (by decide) hj))
    rw [UInt32.toNat_ofNat_of_lt' hfits]
    exact hbits i hvalue
  · cases h

theorem value_lt_of_set? {config updated : Config} {field : Field} {value : Nat}
    (h : config.set? field value = some updated) : value < 1 <<< field.width := by
  unfold set? at h
  split at h
  · next hvalue => exact hvalue
  · cases h

theorem get_set?_same {config updated : Config} {field : Field} {value : Nat}
    (h : config.set? field value = some updated) : updated.get field = value := by
  apply Nat.eq_of_testBit_eq
  intro i
  rw [testBit_get, testBit_set? h]
  by_cases hi : i < field.width
  · rw [if_pos (by omega), Nat.add_sub_cancel_left, decide_eq_true hi, Bool.true_and]
  · have hwidth := value_lt_of_set? h
    rw [Nat.one_shiftLeft] at hwidth
    have hvalue := Nat.lt_of_lt_of_le hwidth
      (Nat.pow_le_pow_right (by decide) (Nat.le_of_not_lt hi))
    rw [decide_eq_false hi, Bool.false_and, Nat.testBit_lt_two_pow hvalue]

theorem get_set?_other {config updated : Config} {field other : Field} {value : Nat}
    (h : config.set? field value = some updated) (hne : field ≠ other) :
    updated.get other = config.get other := by
  apply Nat.eq_of_testBit_eq
  intro i
  rw [testBit_get, testBit_get, testBit_set? h]
  by_cases hi : i < other.width
  · have hapart := Field.disjoint hne
    rw [if_neg (by omega)]
  · rw [decide_eq_false hi, Bool.false_and, Bool.false_and]

theorem recorded_of_recording? {config updated : Config} {nand source : Nand} {title : Title}
    (h : config.recording? nand source title = some updated) :
    updated.get .nandUsed = codeOf nand ∧ updated.get .sourceUsed = codeOf source := by
  unfold recording? at h
  obtain ⟨first, hfirst, hrest⟩ := Option.bind_eq_some_iff.1 h
  obtain ⟨second, hsecond, hlast⟩ := Option.bind_eq_some_iff.1 hrest
  constructor
  · rw [get_set?_other hlast (by decide), get_set?_other hsecond (by decide),
      get_set?_same hfirst]
  · rw [get_set?_other hlast (by decide), get_set?_same hsecond]

/-! ## The file -/

theorem decode_encode (config : Config) : decode config.encode = .ok config := by
  have hword := Bytes.word_ofWord config.word
  have hsize : config.encode.size = fileSize := rfl
  have hmagic : config.encode.window 0 4 = magic := rfl
  have hmajor : config.encode.half 4 = majorVersion := rfl
  have hvalue : config.encode.word 8 = config.word := hword
  rw [decode, if_neg (not_not_intro hsize), if_neg (not_not_intro hmagic),
    if_neg (not_not_intro hmajor), hvalue]

end BootStage.Config
