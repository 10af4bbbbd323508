import BootStage.Proofs.Slots
import BootStage.Proofs.ConfigFields
/-!
# The configuration codec

A file is read when its size, magic and major version are right, and it is then the file written
for the configuration read, up to its minor version. A field takes the values that fit its width,
and no bit of the word outside the field changes with it.
-/

namespace BootStage.Config

variable {file : Bytes} {config updated : Config} {field : Field} {value : Nat}

/-! ## Files -/

/-- What a file of any minor version has. -/
structure IsFile (file : Bytes) : Prop where
  size : file.size = 12
  magic : file.window 0 4 = .ofAscii "CONF"
  major : file.half 4 = 1

/-- The first of size, magic and version that is wrong with a file. -/
inductive FirstFlaw (file : Bytes) : ConfigFailure → Prop
  | size (hsize : file.size ≠ 12) : FirstFlaw file (.wrongSize file.size)
  | magic (hsize : file.size = 12) (hmagic : file.window 0 4 ≠ .ofAscii "CONF") :
    FirstFlaw file (.wrongMagic (file.window 0 4))
  | version (hsize : file.size = 12) (hmagic : file.window 0 4 = .ofAscii "CONF")
      (hmajor : file.half 4 ≠ 1) :
    FirstFlaw file (.wrongVersion (file.half 4) (file.half 6))

private theorem decode_checks (file : Bytes) : decode file =
    if file.size ≠ 12 then .error (.wrongSize file.size)
    else if file.window 0 4 ≠ .ofAscii "CONF" then .error (.wrongMagic (file.window 0 4))
    else if file.half 4 ≠ 1 then .error (.wrongVersion (file.half 4) (file.half 6))
    else .ok ⟨file.word 8⟩ :=
  rfl

theorem IsFile.decode_eq (h : IsFile file) : decode file = .ok ⟨file.word 8⟩ := by
  rw [decode_checks, if_neg (not_not_intro h.size), if_neg (not_not_intro h.magic),
    if_neg (not_not_intro h.major)]

theorem FirstFlaw.decode_eq {err : ConfigFailure} (h : FirstFlaw file err) :
    decode file = .error err := by
  rw [decode_checks]
  cases h with
  | size hsize => rw [if_pos hsize]
  | magic hsize hmagic => rw [if_neg (not_not_intro hsize), if_pos hmagic]
  | version hsize hmagic hmajor =>
    rw [if_neg (not_not_intro hsize), if_neg (not_not_intro hmagic), if_pos hmajor]

theorem isFile_or_firstFlaw (file : Bytes) : IsFile file ∨ ∃ err, FirstFlaw file err := by
  by_cases hsize : file.size = 12
  · by_cases hmagic : file.window 0 4 = .ofAscii "CONF"
    · by_cases hmajor : file.half 4 = 1
      · exact .inl ⟨hsize, hmagic, hmajor⟩
      · exact .inr ⟨_, .version hsize hmagic hmajor⟩
    · exact .inr ⟨_, .magic hsize hmagic⟩
  · exact .inr ⟨_, .size hsize⟩

theorem decode_eq_error_iff (file : Bytes) (err : ConfigFailure) :
    decode file = .error err ↔ FirstFlaw file err := by
  refine ⟨fun h => ?_, FirstFlaw.decode_eq⟩
  obtain hfile | ⟨other, hflaw⟩ := isFile_or_firstFlaw file
  · rw [hfile.decode_eq] at h
    cases h
  · rw [hflaw.decode_eq] at h
    obtain rfl := Except.error.inj h
    exact hflaw

theorem isFile_of_decode (h : decode file = .ok config) : IsFile file := by
  obtain hfile | ⟨err, hflaw⟩ := isFile_or_firstFlaw file
  · exact hfile
  · rw [hflaw.decode_eq] at h
    cases h

theorem exists_decode_iff (file : Bytes) : (∃ config, decode file = .ok config) ↔ IsFile file :=
  ⟨fun ⟨_, h⟩ => isFile_of_decode h, fun h => ⟨_, h.decode_eq⟩⟩

/-- `file` with its minor version replaced by the one that is written. -/
def refreshed (file : Bytes) : Bytes :=
  file.overwrite 6 (.ofHalf 2)

theorem word_refreshed (file : Bytes) : (refreshed file).word 8 = file.word 8 :=
  Bytes.word_overwrite_apart file (.inr (by decide))

theorem IsFile.refreshed_eq (h : IsFile file) : refreshed file = encode ⟨file.word 8⟩ := by
  have hmagic : (encode ⟨file.word 8⟩).window 0 4 = file.window 0 4 := h.magic.symm
  have hmajor : (encode ⟨file.word 8⟩).half 4 = file.half 4 := h.major.symm
  have hword : (encode ⟨file.word 8⟩).word 8 = file.word 8 := Bytes.word_ofWord _
  have hminor := Bytes.size_ofHalf 2
  refine (Bytes.eq_of_byte ?_ fun i hi => ?_).symm
  · exact h.size.symm.trans (Bytes.size_overwrite _ _ _).symm
  · rw [refreshed, Bytes.size_overwrite, h.size] at hi
    rw [refreshed, Bytes.byte, Bytes.byte, Bytes.getElem?_overwrite, h.size]
    split
    · next hin =>
      obtain rfl | rfl : i = 6 ∨ i = 7 := by omega
      all_goals rfl
    · next hout =>
      change (encode ⟨file.word 8⟩).byte i = file.byte i
      rcases Nat.lt_or_ge i 4 with hlow | hhigh
      · exact Bytes.byte_of_window_eq hmagic (Nat.zero_le i) (by omega)
      · rcases Nat.lt_or_ge i 8 with hversion | hlast
        · exact Bytes.byte_of_half_eq hmajor hhigh (by omega)
        · exact Bytes.byte_of_word_eq hword hlast (by omega)

/-- A file is read as `config` when it is `config`'s file in all but the minor version. -/
theorem decode_eq_ok_iff (file : Bytes) (config : Config) :
    decode file = .ok config ↔ IsFile file ∧ refreshed file = encode config := by
  constructor
  · intro h
    have hfile := isFile_of_decode h
    rw [hfile.decode_eq] at h
    obtain rfl := Except.ok.inj h
    exact ⟨hfile, hfile.refreshed_eq⟩
  · rintro ⟨hfile, hrefreshed⟩
    have hword : file.word 8 = config.word := by
      rw [← word_refreshed, hrefreshed]
      exact Bytes.word_ofWord config.word
    rw [hfile.decode_eq, hword]

/-! ## Fields -/

def Field.Has (field : Field) (i : Nat) : Prop :=
  field.shift ≤ i ∧ i < field.shift + field.width

/-- No two fields share a bit. -/
theorem Field.has_inj {other : Field} {i : Nat} (h : field.Has i) (hother : other.Has i) :
    field = other := by
  apply Decidable.byContradiction
  intro hne
  have hapart := Field.disjoint hne
  unfold Field.Has at h hother
  omega

/-- `updated` is `config` with `field` set to `value`, and nothing else changed. -/
structure IsSet (config : Config) (field : Field) (value : Nat) (updated : Config) : Prop where
  value : updated.get field = value
  others : ∀ other, other ≠ field → updated.get other = config.get other
  bits : ∀ i, ¬field.Has i → updated.word.toNat.testBit i = config.word.toNat.testBit i

theorem isSet_of_set? (h : config.set? field value = some updated) :
    IsSet config field value updated where
  value := get_set?_same h
  others other hne := get_set?_other h hne.symm
  bits i hi := by
    unfold Field.Has at hi
    rw [testBit_set? h, if_neg hi]

theorem set?_isSome_iff (config : Config) (field : Field) (value : Nat) :
    (config.set? field value).isSome ↔ value < 1 <<< field.width := by
  refine ⟨fun h => ?_, config.set?_isSome field⟩
  obtain ⟨updated, hupdated⟩ := Option.isSome_iff_exists.1 h
  exact value_lt_of_set? hupdated

theorem IsSet.unique {updated' : Config} (h : IsSet config field value updated)
    (h' : IsSet config field value updated') : updated = updated' := by
  have hword : updated.word = updated'.word := by
    apply UInt32.toNat_inj.1
    apply Nat.eq_of_testBit_eq
    intro i
    by_cases hi : field.Has i
    · have hbit := congrArg (Nat.testBit · (i - field.shift)) (h.value.trans h'.value.symm)
      unfold Field.Has at hi
      simpa only [testBit_get, decide_eq_true (show i - field.shift < field.width by omega),
        Bool.true_and, Nat.add_sub_cancel' hi.1] using hbit
    · rw [h.bits i hi, h'.bits i hi]
  cases updated
  cases updated'
  exact congrArg Config.mk hword

theorem set?_eq_some_iff (config : Config) (field : Field) (value : Nat) (updated : Config) :
    config.set? field value = some updated ↔ IsSet config field value updated := by
  refine ⟨isSet_of_set?, fun h => ?_⟩
  have hvalue : value < 1 <<< field.width := h.value ▸ updated.get_lt field
  obtain ⟨result, hresult⟩ := Option.isSome_iff_exists.1 (config.set?_isSome field hvalue)
  rw [hresult, h.unique (isSet_of_set? hresult)]

/-! ## Word and file -/

/-- The layout of the configuration word, and of the file that holds it. A word is kept bit by bit
and read back from its file. Files are read, or refused, by size, magic and major version. A field
is set to the values that fit it, and shares no bit with another. -/
theorem word_and_file_layout :
    (∀ word : UInt32, (Config.mk word).word = word ∧ decode (encode ⟨word⟩) = .ok ⟨word⟩) ∧
    (∀ file config, decode file = .ok config ↔ IsFile file ∧ refreshed file = encode config) ∧
    (∀ file, (∃ config, decode file = .ok config) ↔ IsFile file) ∧
    (∀ file err, decode file = .error err ↔ FirstFlaw file err) ∧
    (∀ (config : Config) field value,
      (config.set? field value).isSome ↔ value < 1 <<< Field.width field) ∧
    (∀ (config : Config) field value updated,
      config.set? field value = some updated ↔ IsSet config field value updated) ∧
    (∀ (field other : Field) (i : Nat), field.Has i → i < 32 ∧ (other.Has i → field = other)) := by
  refine ⟨fun word => ⟨rfl, decode_encode ⟨word⟩⟩, decode_eq_ok_iff, exists_decode_iff,
    decode_eq_error_iff, set?_isSome_iff, set?_eq_some_iff,
    fun field other i hi => ⟨?_, Field.has_inj hi⟩⟩
  have hinside := field.shift_add_width
  exact Nat.lt_of_lt_of_le hi.2 hinside

end BootStage.Config
