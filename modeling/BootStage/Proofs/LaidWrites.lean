import BootStage.Bytes.Search
import BootStage.Bytes.Word
/-!
# Lists of writes

Bytes laid over an image one write after the other. A byte that no write covers is kept, and where
the writes lie apart, a byte that one of them covers is the one it laid there.
-/

namespace BootStage

structure Write where
  pos : Nat
  data : Bytes
  deriving DecidableEq, Repr

def Write.Covers (write : Write) (i : Nat) : Prop :=
  write.pos ≤ i ∧ i < write.pos + write.data.size

@[simp] theorem Write.covers_mk {pos i : Nat} {data : Bytes} :
    (Write.mk pos data).Covers i ↔ pos ≤ i ∧ i < pos + data.size :=
  Iff.rfl

def Write.Apart (write : Write) (pos len : Nat) : Prop :=
  write.pos + write.data.size ≤ pos ∨ pos + len ≤ write.pos

instance (write : Write) (pos len : Nat) : Decidable (write.Apart pos len) :=
  inferInstanceAs (Decidable (_ ∨ _))

def Write.Disjoint (write other : Write) : Prop :=
  ∀ i, write.Covers i → ¬other.Covers i

theorem Write.disjoint_of_apart {write other : Write} (h : write.Apart other.pos other.data.size) :
    write.Disjoint other := by
  unfold Apart at h
  unfold Disjoint Covers
  omega

/-- A write to a part of an image that begins at `start`, as one to the image. -/
def Write.shifted (start : Nat) (write : Write) : Write :=
  ⟨start + write.pos, write.data⟩

namespace Bytes

/-! ## One write after another -/

theorem overwrite_overwrite_inside (b data part : Bytes) {pos offset : Nat}
    (h : offset + part.size ≤ data.size) :
    (b.overwrite pos data).overwrite (pos + offset) part =
      b.overwrite pos (data.overwrite offset part) := by
  apply Array.ext_getElem?
  intro i
  rw [getElem?_overwrite, getElem?_overwrite, getElem?_overwrite, getElem?_overwrite,
    size_overwrite, size_overwrite]
  by_cases hpart : pos + offset ≤ i ∧ i < pos + offset + part.size ∧ i < b.size
  · rw [if_pos hpart, if_pos (by omega), if_pos (by omega), Nat.sub_sub]
  · rw [if_neg hpart]
    by_cases hdata : pos ≤ i ∧ i < pos + data.size ∧ i < b.size
    · rw [if_pos hdata, if_pos hdata, if_neg (by omega)]
    · rw [if_neg hdata, if_neg hdata]

theorem overwrite_append (b front rest : Bytes) (pos : Nat) :
    (b.overwrite pos front).overwrite (pos + front.size) rest =
      b.overwrite pos (front ++ rest) := by
  apply Array.ext_getElem?
  intro i
  rw [getElem?_overwrite, getElem?_overwrite, getElem?_overwrite, size_overwrite, Array.size_append]
  by_cases hrest : pos + front.size ≤ i ∧ i < pos + front.size + rest.size ∧ i < b.size
  · rw [if_pos hrest, if_pos (by omega), Array.getElem?_append_right (by omega), Nat.sub_sub]
  · rw [if_neg hrest]
    by_cases hfront : pos ≤ i ∧ i < pos + front.size ∧ i < b.size
    · rw [if_pos hfront, if_pos (by omega), Array.getElem?_append_left (by omega)]
    · rw [if_neg hfront, if_neg (by omega)]

theorem overwrite_overwrite_same (b : Bytes) (pos : Nat) {first later : Bytes}
    (h : later.size = first.size) :
    (b.overwrite pos first).overwrite pos later = b.overwrite pos later := by
  apply Array.ext_getElem?
  intro i
  rw [getElem?_overwrite, getElem?_overwrite, getElem?_overwrite, size_overwrite]
  by_cases hin : pos ≤ i ∧ i < pos + later.size ∧ i < b.size
  · rw [if_pos hin, if_pos hin]
  · rw [if_neg hin, if_neg hin, if_neg (h ▸ hin)]

/-! ## Lists -/

variable {b : Bytes} {writes : List Write} {i : Nat}

def layAll (b : Bytes) (writes : List Write) : Bytes :=
  writes.foldl (fun b write => b.overwrite write.pos write.data) b

@[simp] theorem layAll_nil (b : Bytes) : b.layAll [] = b :=
  rfl

@[simp] theorem layAll_cons (b : Bytes) (write : Write) (later : List Write) :
    b.layAll (write :: later) = (b.overwrite write.pos write.data).layAll later :=
  rfl

theorem layAll_mk_cons (b : Bytes) (pos : Nat) (data : Bytes) (later : List Write) :
    b.layAll (⟨pos, data⟩ :: later) = (b.overwrite pos data).layAll later :=
  rfl

theorem layAll_pair (b : Bytes) (pos pos' : Nat) (data data' : Bytes) :
    b.layAll [⟨pos, data⟩, ⟨pos', data'⟩] = (b.overwrite pos data).overwrite pos' data' :=
  rfl

theorem layAll_append (b : Bytes) (writes later : List Write) :
    b.layAll (writes ++ later) = (b.layAll writes).layAll later :=
  List.foldl_append

@[simp] theorem size_layAll (b : Bytes) (writes : List Write) :
    (b.layAll writes).size = b.size := by
  induction writes generalizing b with
  | nil => rfl
  | cons write rest ih => exact (ih _).trans (size_overwrite _ _ _)

theorem overwrite_layAll {part : Bytes} {start : Nat}
    (h : ∀ write ∈ writes, write.pos + write.data.size ≤ part.size) :
    b.overwrite start (part.layAll writes) =
      (b.overwrite start part).layAll (writes.map (·.shifted start)) := by
  induction writes generalizing part with
  | nil => rfl
  | cons write rest ih =>
    obtain ⟨hfirst, hrest⟩ := List.forall_mem_cons.1 h
    calc b.overwrite start (part.layAll (write :: rest))
        = (b.overwrite start (part.overwrite write.pos write.data)).layAll
            (rest.map (·.shifted start)) := ih (by simpa using hrest)
      _ = ((b.overwrite start part).overwrite (start + write.pos) write.data).layAll
            (rest.map (·.shifted start)) := by rw [overwrite_overwrite_inside b _ _ hfirst]
      _ = (b.overwrite start part).layAll ((write :: rest).map (·.shifted start)) := rfl

theorem getElem?_layAll_of_clear (h : ∀ write ∈ writes, ¬write.Covers i) :
    (b.layAll writes)[i]? = b[i]? := by
  induction writes generalizing b with
  | nil => rfl
  | cons write rest ih =>
    have hrest : ((b.overwrite write.pos write.data).layAll rest)[i]? =
        (b.overwrite write.pos write.data)[i]? :=
      ih fun w hw => h w (List.mem_cons_of_mem write hw)
    have hclear := h write List.mem_cons_self
    unfold Write.Covers at hclear
    refine hrest.trans ?_
    rw [getElem?_overwrite, if_neg fun hin => hclear ⟨hin.1, hin.2.1⟩]

theorem getElem?_layAll_of_apart {pos len : Nat} (h : ∀ write ∈ writes, write.Apart pos len)
    (hstart : pos ≤ i) (hstop : i < pos + len) : (b.layAll writes)[i]? = b[i]? := by
  refine getElem?_layAll_of_clear fun write hwrite hcovers => ?_
  have hapart := h write hwrite
  unfold Write.Apart at hapart
  unfold Write.Covers at hcovers
  omega

/-- A byte is the one that the last write over it laid there. -/
theorem getElem?_layAll_of_last {before later : List Write} {write : Write}
    (hcovers : write.Covers i) (hi : i < b.size) (hlater : ∀ next ∈ later, ¬next.Covers i) :
    (b.layAll (before ++ write :: later))[i]? = write.data[i - write.pos]? := by
  have hsize : i < (b.layAll before).size := by rwa [size_layAll]
  rw [layAll_append, layAll_cons, getElem?_layAll_of_clear hlater, getElem?_overwrite,
    if_pos ⟨hcovers.1, hcovers.2, hsize⟩]

theorem getElem?_layAll_of_disjoint {write : Write} (hdisjoint : writes.Pairwise Write.Disjoint)
    (hmem : write ∈ writes) (hcovers : write.Covers i) (hi : i < b.size) :
    (b.layAll writes)[i]? = write.data[i - write.pos]? := by
  obtain ⟨before, later, rfl⟩ := List.append_of_mem hmem
  have hlater := (List.pairwise_cons.1 (List.pairwise_append.1 hdisjoint).2.1).1
  exact getElem?_layAll_of_last hcovers hi fun next hnext => hlater next hnext i hcovers

theorem getElem?_layAll_of_covers {write : Write}
    (hapart : writes.Pairwise fun first later => first.pos + first.data.size ≤ later.pos)
    (hmem : write ∈ writes) (hcovers : write.Covers i) (hi : i < b.size) :
    (b.layAll writes)[i]? = write.data[i - write.pos]? :=
  getElem?_layAll_of_disjoint (hapart.imp fun h => Write.disjoint_of_apart (.inl h)) hmem hcovers hi

theorem occursAt_layAll_of_disjoint {pos : Nat} {data : Bytes}
    (hdisjoint : writes.Pairwise Write.Disjoint) (hmem : ⟨pos, data⟩ ∈ writes)
    (hfits : pos + data.size ≤ b.size) : OccursAt (b.layAll writes) data pos := by
  refine ⟨by rwa [size_layAll], fun i hi => ?_⟩
  have hcovers := Write.covers_mk.2 ⟨Nat.le_add_right pos i, Nat.add_lt_add_left hi pos⟩
  rw [getElem?_layAll_of_disjoint hdisjoint hmem hcovers (by omega), Nat.add_sub_cancel_left]

/-! ## What stands where it was laid -/

theorem occursAt_overwrite (b data : Bytes) {pos : Nat} (h : pos + data.size ≤ b.size) :
    OccursAt (b.overwrite pos data) data pos := by
  refine ⟨by rwa [size_overwrite], fun i hi => ?_⟩
  rw [getElem?_overwrite, if_pos (by omega), Nat.add_sub_cancel_left]

theorem word_of_occursAt {pos : Nat} {value : UInt32} (h : OccursAt b (ofWord value) pos) :
    b.word pos = value := by
  rw [← word_ofWord value]
  refine word_eq_of_byte fun k hk => ?_
  rw [Nat.zero_add, byte, byte, h.2 k hk]

end Bytes

namespace OccursAt

variable {b pattern : Bytes} {pos : Nat}

theorem overwrite {data : Bytes} {start : Nat} (h : OccursAt b pattern pos)
    (hapart : pos + pattern.size ≤ start ∨ start + data.size ≤ pos) :
    OccursAt (b.overwrite start data) pattern pos := by
  refine ⟨by rw [Bytes.size_overwrite]; exact h.1, fun i hi => ?_⟩
  rw [Bytes.getElem?_overwrite, if_neg (by omega), h.2 i hi]

theorem layAll {writes : List Write} (h : OccursAt b pattern pos)
    (hapart : ∀ write ∈ writes, write.Apart pos pattern.size) :
    OccursAt (b.layAll writes) pattern pos := by
  refine ⟨by rw [Bytes.size_layAll]; exact h.1, fun i hi => ?_⟩
  rw [Bytes.getElem?_layAll_of_apart hapart (by omega) (by omega), h.2 i hi]

theorem of_append {rest : Bytes} (h : OccursAt b (pattern ++ rest) pos) :
    OccursAt b pattern pos := by
  have hsize : (pattern ++ rest).size = pattern.size + rest.size := Array.size_append
  refine ⟨Nat.le_trans (by omega) h.1, fun i hi => ?_⟩
  rw [h.2 i (by omega), Array.getElem?_append_left hi]

end OccursAt
end BootStage
