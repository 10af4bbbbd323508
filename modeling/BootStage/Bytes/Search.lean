import BootStage.Bytes.Digest
/-!
# Pattern search

A bad-character skip table finds the lowest occurrence of a pattern. Entry `b` of the table
is how far the window may slide when its last byte is `b`: up to the last earlier place of `b`
in the pattern, or past the window when there is none. No entry is zero, so a search ends.

A window is compared with the pattern only when the two have equal digests, so that a search
takes time linear in the image, however alike image and pattern are. `search_eq` says that the
digests change nothing else.
-/

namespace BootStage

def OccursAt (hay pattern : Bytes) (pos : Nat) : Prop :=
  pos + pattern.size ≤ hay.size ∧ ∀ i < pattern.size, hay[pos + i]? = pattern[i]?

namespace OccursAt

def agree (hay pattern : Bytes) (pos : Nat) : (count : Nat) → Bool
  | 0 => true
  | i + 1 => hay[pos + i]? == pattern[i]? && agree hay pattern pos i

theorem agree_iff (hay pattern : Bytes) (pos count : Nat) :
    agree hay pattern pos count ↔ ∀ i < count, hay[pos + i]? = pattern[i]? := by
  induction count with
  | zero => simp [agree]
  | succ count ih =>
    rw [agree, Bool.and_eq_true, beq_iff_eq, ih, Nat.forall_lt_succ_right]
    exact And.comm

instance (hay pattern : Bytes) (pos : Nat) : Decidable (OccursAt hay pattern pos) :=
  decidable_of_iff (pos + pattern.size ≤ hay.size ∧ agree hay pattern pos pattern.size)
    (and_congr_right' (agree_iff hay pattern pos pattern.size))

theorem digest_eq {hay pattern : Bytes} {pos : Nat} (h : OccursAt hay pattern pos) :
    hay.digest pos pattern.size = pattern.digest 0 pattern.size := by
  apply Bytes.digest_congr
  intro i hi
  rw [Bytes.byte, Bytes.byte, h.2 i hi, Nat.zero_add]

end OccursAt

structure SkipTable where
  pattern : Bytes
  /-- How far to slide, by the last byte of the window. -/
  skips : Vector Nat 256
  size_pos : 0 < pattern.size
  skip_pos : ∀ b : UInt8, 0 < skips.get b.toFin

namespace SkipTable

/-- Skips after the first `count` bytes of the pattern were entered: later places of a byte
replace earlier ones. -/
def entered (pattern : Bytes) (count : Nat) (h : count < pattern.size) : Vector Nat 256 :=
  Nat.fold count
    (fun i hi skips => skips.set pattern[i].toNat (pattern.size - 1 - i) (UInt8.toNat_lt _))
    (Vector.replicate 256 pattern.size)

theorem entered_succ (pattern : Bytes) (i : Nat) (h : i + 1 < pattern.size) :
    entered pattern (i + 1) h =
      (entered pattern i (by omega)).set pattern[i].toNat (pattern.size - 1 - i)
        (UInt8.toNat_lt _) :=
  Nat.fold_succ ..

private theorem entered_pos (pattern : Bytes) (count : Nat) (h : count < pattern.size)
    (b : UInt8) : 0 < (entered pattern count h).get b.toFin := by
  induction count with
  | zero =>
    have hb := b.toNat_lt
    change 0 < (Vector.replicate 256 pattern.size)[b.toNat]
    rw [Vector.getElem_replicate]
    exact h
  | succ i ih =>
    have hb := b.toNat_lt
    change 0 < (entered pattern (i + 1) h)[b.toNat]
    rw [entered_succ, Vector.getElem_set]
    split
    · omega
    · exact ih (by omega)

/-- The table of a pattern; the empty pattern has none, since it matches nothing. -/
def ofPattern? (pattern : Bytes) : Option SkipTable :=
  if h : 0 < pattern.size then
    some
      { pattern
        skips := entered pattern (pattern.size - 1) (by omega)
        size_pos := h
        skip_pos := entered_pos pattern _ _ }
  else none

def skipAt (table : SkipTable) (hay : Bytes) (pos : Nat) : Nat :=
  table.skips.get (hay.byte (pos + (table.pattern.size - 1))).toFin

theorem skipAt_pos (table : SkipTable) (hay : Bytes) (pos : Nat) : 0 < table.skipAt hay pos :=
  table.skip_pos _

/-- Goes on searching with the window at `pos`, whose digest is `d`. An occurrence has the
digest `target`. -/
def advance (table : SkipTable) (hay : Bytes) (target weight : UInt64) (pos : Nat)
    (d : UInt64) : Option Nat :=
  if pos + table.pattern.size ≤ hay.size then
    if d == target && decide (OccursAt hay table.pattern pos) then some pos
    else
      have := table.skipAt_pos hay pos
      advance table hay target weight (pos + table.skipAt hay pos)
        (hay.digestMove weight pos table.pattern.size (table.skipAt hay pos) d)
  else none
termination_by hay.size - pos
decreasing_by
  have := table.size_pos
  omega

/-- The lowest occurrence at or after `pos`, sliding by the table. -/
def search (table : SkipTable) (hay : Bytes) (pos : Nat) : Option Nat :=
  table.advance hay (table.pattern.digest 0 table.pattern.size)
    (Bytes.digestWeight table.pattern.size) pos (hay.digest pos table.pattern.size)

theorem search_eq (table : SkipTable) (hay : Bytes) (pos : Nat) :
    table.search hay pos =
      if pos + table.pattern.size ≤ hay.size then
        if OccursAt hay table.pattern pos then some pos
        else table.search hay (pos + table.skipAt hay pos)
      else none := by
  have hfound : (hay.digest pos table.pattern.size ==
        table.pattern.digest 0 table.pattern.size &&
          decide (OccursAt hay table.pattern pos)) = decide (OccursAt hay table.pattern pos) := by
    by_cases h : OccursAt hay table.pattern pos
    · rw [h.digest_eq, beq_self_eq_true, Bool.true_and]
    · rw [decide_eq_false h, Bool.and_false]
  unfold search
  rw [advance, hfound, Bytes.digest_move]
  simp only [decide_eq_true_eq]

def firstIn (table : SkipTable) (hay : Bytes) : Option Nat :=
  table.search hay 0

end SkipTable

namespace Bytes

/-- The lowest occurrence of `pattern`. An empty pattern occurs nowhere. -/
def occurrence? (hay pattern : Bytes) : Option Nat :=
  (SkipTable.ofPattern? pattern).bind (·.firstIn hay)

def occurrenceFrom? (hay pattern : Bytes) (start : Nat) : Option Nat :=
  (SkipTable.ofPattern? pattern).bind (·.search hay start)

/-- The position `back` bytes in front of the lowest occurrence of `pattern`. -/
def anchor? (hay pattern : Bytes) (back : Nat) : Option Nat :=
  (occurrence? hay pattern).bind fun found => if back ≤ found then some (found - back) else none

end Bytes
end BootStage
