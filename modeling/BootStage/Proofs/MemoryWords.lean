import BootStage.Machine.Basic
/-!
# Words in memory

A word cell is four bytes of memory, and what it reads says what each of them holds. Storing a word
changes these four bytes; in the cell of operations the second core then puts its own word.
-/

namespace BootStage

def Cell.Spans (cell a : UInt32) : Prop :=
  (a - cell).toNat < 4

instance (cell a : UInt32) : Decidable (Cell.Spans cell a) :=
  inferInstanceAs (Decidable (_ < _))

theorem Cell.spans_iff {cell a : UInt32} (h : cell.toNat + 4 ≤ 0x100000000) :
    Cell.Spans cell a ↔ cell.toNat ≤ a.toNat ∧ a.toNat < cell.toNat + 4 := by
  have ha := a.toNat_lt
  unfold Cell.Spans
  rw [UInt32.toNat_sub]
  omega

def Cell.InParameters (a : UInt32) : Prop :=
  Cell.parameters.toNat ≤ a.toNat ∧ a.toNat < Cell.parameters.toNat + 0x10

theorem Cell.inParameters_of_spans {i : Fin 4} {a : UInt32}
    (h : Cell.Spans (Cell.parameters + UInt32.ofNat (4 * i.val)) a) : Cell.InParameters a := by
  have hblock : Cell.parameters.toNat = 0x1FFFF000 := rfl
  have hplace : ∀ i : Fin 4,
      (Cell.parameters + UInt32.ofNat (4 * i.val)).toNat = 0x1FFFF000 + 4 * i.val := by decide
  have hcell := hplace i
  rw [Cell.spans_iff (by omega)] at h
  unfold Cell.InParameters
  omega

namespace Memory

variable {memory memory' : Memory} {cell a : UInt32}

theorem size_read (memory : Memory) (address len : UInt32) :
    (memory.read address len).size = len.toNat :=
  Array.size_ofFn

theorem byte_read (memory : Memory) (address : UInt32) {len : UInt32} {i : Nat}
    (h : i < len.toNat) :
    (memory.read address len).byte i = memory.byte (address + UInt32.ofNat i) := by
  have hsize := memory.size_read address len
  rw [Bytes.byte, Array.getElem?_eq_getElem (by omega), Option.getD_some]
  exact Array.getElem_ofFn _

theorem byte_setWord (memory : Memory) (cell value a : UInt32) :
    (memory.setWord cell value).byte a =
      if Cell.Spans cell a then (Bytes.ofWord value).byte (a - cell).toNat
      else memory.byte a :=
  memory.byte_lay cell _ a

theorem byte_setWord_congr (h : memory'.byte a = memory.byte a) (cell value : UInt32) :
    (memory'.setWord cell value).byte a = (memory.setWord cell value).byte a := by
  rw [byte_setWord, byte_setWord, h]

theorem word_eq_iff {value : UInt32} :
    memory.word cell = value ↔
      ∀ a, Cell.Spans cell a → memory.byte a = (Bytes.ofWord value).byte (a - cell).toNat := by
  have hread : ∀ i < 4,
      (memory.read cell 4).byte i = memory.byte (cell + UInt32.ofNat i) :=
    fun i hi => memory.byte_read cell hi
  constructor
  · intro h a ha
    have hsame : (memory.read cell 4).word 0 = (Bytes.ofWord value).word 0 :=
      h.trans (Bytes.word_ofWord value).symm
    have hbyte := Bytes.byte_of_word_eq hsame (Nat.zero_le (a - cell).toNat) ha
    have hplace : cell + (a - cell) = a := by grind
    rw [hread _ ha, UInt32.ofNat_toNat, hplace] at hbyte
    exact hbyte
  · intro h
    rw [word, ← Bytes.word_ofWord value]
    refine Bytes.word_eq_of_byte fun k hk => ?_
    have hback : (cell + UInt32.ofNat k - cell).toNat = k := by
      rw [UInt32.add_comm, UInt32.add_sub_cancel, UInt32.toNat_ofNat']
      omega
    have hspans : Cell.Spans cell (cell + UInt32.ofNat k) := by
      unfold Cell.Spans
      omega
    rw [Nat.zero_add, hread k hk, h _ hspans, hback]

theorem word_congr (h : ∀ a, Cell.Spans cell a → memory'.byte a = memory.byte a) :
    memory'.word cell = memory.word cell :=
  word_eq_iff.2 fun a ha => (h a ha).trans (word_eq_iff.1 rfl a ha)

theorem word_setWord (memory : Memory) (cell value : UInt32) :
    (memory.setWord cell value).word cell = value :=
  word_eq_iff.2 fun a ha => by rw [byte_setWord, if_pos ha]

end Memory

namespace Machine

variable {m : Machine}

theorem isReady_iff : m.isReady ↔ m.memory.word Cell.operation = Operation.ready.code :=
  decide_eq_true_iff

theorem setWord_of_quiet {cell value : UInt32}
    (h : ¬(cell = Cell.operation ∧ value ≠ Operation.ready.code)) (m : Machine) :
    m.setWord cell value = { m with memory := m.memory.setWord cell value } :=
  if_neg h

theorem setWord_operation {code : UInt32} (h : code ≠ Operation.ready.code) (m : Machine) :
    m.setWord Cell.operation code =
      { m with
        memory := (m.memory.setWord Cell.operation code).setWord Cell.operation
          Operation.ready.code
        requests := m.requests ++ [pending (m.memory.setWord Cell.operation code) code] } :=
  if_pos ⟨rfl, h⟩

theorem pending_congr {memory memory' : Memory} (code : UInt32)
    (h : ∀ a, Cell.InParameters a → memory'.byte a = memory.byte a) :
    pending memory' code = pending memory code := by
  have hword : ∀ i : Fin 4, memory'.word (Cell.parameters + UInt32.ofNat (4 * i.val)) =
      memory.word (Cell.parameters + UInt32.ofNat (4 * i.val)) :=
    fun i => Memory.word_congr fun a ha => h a (Cell.inParameters_of_spans ha)
  simp only [pending, hword]

end Machine
end BootStage
