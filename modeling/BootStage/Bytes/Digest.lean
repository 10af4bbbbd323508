import BootStage.Bytes.Basic
/-!
# Rolling digests

The digest of a window reads its bytes as the digits of a number, kept to 64 bits. Equal
windows have equal digests, so a window whose digest differs need not be looked at.
`digest_step` says why the digest is cheap to keep while the window moves: a byte leaves at the
front and one enters at the end, whatever lies between.
-/

namespace BootStage.Bytes

/-- The base digits are counted in. It is odd, so that no digit loses its weight to overflow. -/
def digestBase : UInt64 := 0x9E3779B97F4A7C15

def digestWeight (len : Nat) : UInt64 :=
  Nat.fold len (fun _ _ weight => weight * digestBase) 1

/-- Digest of the `len` bytes from `pos` on, with zeros past the end. -/
def digest (b : Bytes) (pos len : Nat) : UInt64 :=
  Nat.fold len (fun i _ d => d * digestBase + (b.byte (pos + i)).toUInt64) 0

/-- The digest of the window after the one at `pos` with digest `d`; `weight` is that of a digit
in front of the whole window. -/
def digestStep (b : Bytes) (weight : UInt64) (pos len : Nat) (d : UInt64) : UInt64 :=
  d * digestBase + (b.byte (pos + len)).toUInt64 - (b.byte pos).toUInt64 * weight

def digestMove (b : Bytes) (weight : UInt64) (pos len count : Nat) (d : UInt64) : UInt64 :=
  Nat.fold count (fun i _ d => b.digestStep weight (pos + i) len d) d

private theorem digest_snoc (b : Bytes) (pos len : Nat) :
    b.digest pos (len + 1) = b.digest pos len * digestBase + (b.byte (pos + len)).toUInt64 :=
  Nat.fold_succ ..

private theorem digest_cons (b : Bytes) (pos len : Nat) :
    b.digest pos (len + 1) =
      (b.byte pos).toUInt64 * digestWeight len + b.digest (pos + 1) len := by
  induction len with
  | zero =>
    change 0 * digestBase + (b.byte pos).toUInt64 = (b.byte pos).toUInt64 * 1 + 0
    grind
  | succ len ih =>
    have hw : digestWeight (len + 1) = digestWeight len * digestBase := Nat.fold_succ ..
    rw [digest_snoc, ih, digest_snoc b (pos + 1) len, hw, Nat.add_right_comm pos 1 len,
      Nat.add_assoc pos len 1]
    grind

private theorem add_sub_self (first rest : UInt64) : first + rest - first = rest := by
  grind

/-- Moving the window by a byte drops the first digit and appends one. -/
theorem digest_step (b : Bytes) (pos len : Nat) :
    b.digestStep (digestWeight len) pos len (b.digest pos len) = b.digest (pos + 1) len := by
  rw [digestStep, ← digest_snoc, digest_cons, add_sub_self]

theorem digest_move (b : Bytes) (pos len count : Nat) :
    b.digestMove (digestWeight len) pos len count (b.digest pos len) =
      b.digest (pos + count) len := by
  induction count with
  | zero => rfl
  | succ count ih =>
    unfold digestMove at ih ⊢
    rw [Nat.fold_succ, ih, digest_step, Nat.add_assoc]

theorem digest_congr {b c : Bytes} {pos start len : Nat}
    (h : ∀ i < len, b.byte (pos + i) = c.byte (start + i)) :
    b.digest pos len = c.digest start len := by
  induction len with
  | zero => rw [digest, digest, Nat.fold_zero, Nat.fold_zero]
  | succ len ih =>
    rw [digest_snoc, digest_snoc, ih fun i hi => h i (by omega), h len (by omega)]

end BootStage.Bytes
