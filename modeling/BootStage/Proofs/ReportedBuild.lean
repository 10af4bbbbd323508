import BootStage.Proofs.ServiceStubs
import Mathlib.Algebra.Order.Ring.Nat
/-!
# The build programs are told

Through the identifying call a program reaches the block in the stub. What it reads there is the
build the kernel was patched by, with no digit of its commit lost, and the configuration word.
-/

namespace BootStage

/-! ## Numbers at the start of a text -/

namespace Build

theorem digit?_lt {radix digit : Nat} {c : Char} (h : digit? radix c = some digit) :
    digit < radix := by
  unfold digit? at h
  exact of_decide_eq_true (Option.filter_eq_some_iff.1 h).2

theorem appendDigits_lt {radix bound value : Nat} (hradix : 0 < radix) (h : value < bound)
    (limit : Nat) (text : List Char) :
    appendDigits radix limit value text < bound * radix ^ limit := by
  have hkept : ∀ {value bound : Nat}, value < bound → ∀ n, value < bound * radix ^ n :=
    fun h n => Nat.lt_of_lt_of_le h (Nat.le_mul_of_pos_right _ (Nat.pow_pos hradix))
  -- A digit leaves the value below the bound with one more power of the radix.
  induction text generalizing limit value bound with
  | nil => cases limit <;> exact hkept h _
  | cons c rest ih =>
    cases limit with
    | zero => exact hkept h 0
    | succ limit =>
      unfold appendDigits
      cases hdigit : digit? radix c with
      | none => exact hkept h _
      | some digit =>
        have hnext : value * radix + digit < bound * radix := by
          calc value * radix + digit
            _ < value * radix + radix := Nat.add_lt_add_left (digit?_lt hdigit) _
            _ = (value + 1) * radix := (Nat.succ_mul value radix).symm
            _ ≤ bound * radix := Nat.mul_le_mul_right radix h
        rw [Nat.pow_succ', ← Nat.mul_assoc]
        exact ih hnext limit

theorem leadingNumber_lt {radix : Nat} (hradix : 0 < radix) (limit : Nat) (text : String) :
    leadingNumber radix limit text < radix ^ limit := by
  have h := appendDigits_lt hradix Nat.zero_lt_one limit text.toList
  rwa [Nat.one_mul] at h

theorem toNat_commitWord (build : Build) :
    build.commitWord.toNat = build.commit.elim 0 (leadingNumber 16 8) := by
  unfold commitWord
  cases build.commit with
  | none => rfl
  | some hash =>
    have hlt : leadingNumber 16 8 hash < 2 ^ 32 := leadingNumber_lt (by decide) 8 hash
    exact UInt32.toNat_ofNat_of_lt' hlt

end Build

/-! ## The block in a patched kernel -/

theorem Bytes.window_window (b : Bytes) (pos : Nat) {len start n : Nat} (h : start + n ≤ len) :
    (b.window pos len).window start n = b.window (pos + start) n := by
  have hstop : min (pos + (start + n)) (pos + len) = pos + start + n := by omega
  rw [window, window, window, Array.extract_extract, hstop]

theorem Bytes.word_window (b : Bytes) (pos : Nat) {len start : Nat} (h : start + 4 ≤ len) :
    (b.window pos len).word start = b.word (pos + start) :=
  word_eq_of_byte fun k hk => by
    rw [byte, byte, getElem?_window b pos (by omega), Nat.add_assoc]

namespace ServiceCall

variable {kernel : Kernel} {stub : Info.Stub} {config : Config} {before after : Bytes}
  {pos offset : Nat}

theorem Served.window_block (h : Served kernel stub config before after pos offset) :
    after.window (pos + offset) Info.blockSize = Info.block config stub.build := by
  have hblock := Info.size_block config stub.build
  have hfits := h.blockFits
  calc after.window (pos + offset) Info.blockSize
    _ = (after.window pos stub.code.size).window offset Info.blockSize :=
      (Bytes.window_window after pos hfits).symm
    _ = (Info.filled stub config offset).window offset Info.blockSize := by
      rw [← Info.size_filled stub config offset, h.info.routine]
    _ = Info.block config stub.build := by
      rw [← hblock]
      exact Bytes.extract_overwrite _ _ _ (by rwa [hblock])

theorem Info.flags_bits (build : Build) :
    (Info.flags build &&& 1 ≠ 0 ↔ build.commit.isSome) ∧
      (Info.flags build &&& 2 ≠ 0 ↔ build.preRelease.isEmpty) := by
  unfold Info.flags
  cases build.commit.isSome <;> cases build.preRelease.isEmpty <;> decide

/-- What programs read where the call leads them. -/
theorem Served.reports (h : Served kernel stub config before after pos offset) :
    (∃ flags, after.window (pos + offset + 4) 4 =
        #[stub.build.version.1, stub.build.version.2.1, stub.build.version.2.2, flags] ∧
      (flags &&& 1 ≠ 0 ↔ stub.build.commit.isSome) ∧
      (flags &&& 2 ≠ 0 ↔ stub.build.preRelease.isEmpty)) ∧
      (after.word (pos + offset + 8)).toNat =
        stub.build.commit.elim 0 (Build.leadingNumber 16 8) ∧
      after.word (pos + offset + 12) = config.word := by
  obtain ⟨-, hversion, hcommit, hconfig⟩ := Info.block_reads config stub.build
  have hword : ∀ start, start + 4 ≤ Info.blockSize →
      after.word (pos + offset + start) = (Info.block config stub.build).word start := by
    intro start hstart
    rw [← h.window_block, Bytes.word_window _ _ hstart]
  refine ⟨⟨Info.flags stub.build, ?_, Info.flags_bits stub.build⟩, ?_, ?_⟩
  · rw [← hversion, ← h.window_block, Bytes.window_window _ _ (by decide)]
  · rw [hword 8 (by decide), hcommit, Build.toNat_commitWord]
  · rw [hword 12 (by decide), hconfig]

end ServiceCall
end BootStage
