import BootStage.Event
import BootStage.Run
/-!
# The machine

Physical memory as the boot stage sees it, with the cells it shares with the hardware and the
second core. Memory is what the last writer of each address left. The second core carries out
a posted request at once, so its cell reads ready again; queued button states are latched one
a sleep, and nothing else changes the pad.
-/

namespace BootStage

/-- Bytes laid in memory from an address on, wrapping at the top. -/
structure Layer where
  address : UInt32
  data : Bytes
  deriving DecidableEq, Repr

namespace Layer

def covers (layer : Layer) (a : UInt32) : Prop :=
  (a - layer.address).toNat < layer.data.size

instance (layer : Layer) (a : UInt32) : Decidable (layer.covers a) :=
  inferInstanceAs (Decidable (_ < _))

def isUnder (layer upper : Layer) : Bool :=
  (layer.address - upper.address).toNat + layer.data.size ≤ upper.data.size

theorem covers_of_isUnder {layer upper : Layer} {a : UInt32} (h : layer.isUnder upper)
    (ha : layer.covers a) : upper.covers a := by
  unfold isUnder at h
  unfold covers at *
  have hsum := of_decide_eq_true h
  have hstep : a - upper.address = (a - layer.address) + (layer.address - upper.address) := by
    grind
  rw [hstep, UInt32.toNat_add]
  have := Nat.mod_le ((a - layer.address).toNat + (layer.address - upper.address).toNat)
    4294967296
  omega

end Layer

/-- Physical memory, as the layers written to it, the latest first. Layers that lie under a
later one are dropped, since they cannot be seen. -/
structure Memory where
  layers : List Layer
  deriving DecidableEq, Repr

namespace Memory

def blank : Memory := ⟨[]⟩

/-- The byte at address `a` in the first layer that has one, zero when none has. -/
def seen (a : UInt32) : List Layer → UInt8
  | [] => 0
  | layer :: older =>
    if layer.covers a then layer.data.byte (a - layer.address).toNat else seen a older

def byte (memory : Memory) (a : UInt32) : UInt8 :=
  seen a memory.layers

def lay (memory : Memory) (address : UInt32) (data : Bytes) : Memory :=
  ⟨⟨address, data⟩ :: memory.layers.filter fun layer => !layer.isUnder ⟨address, data⟩⟩

def read (memory : Memory) (address len : UInt32) : Bytes :=
  Array.ofFn fun i : Fin len.toNat => memory.byte (address + UInt32.ofNat i.val)

def word (memory : Memory) (address : UInt32) : UInt32 :=
  (memory.read address 4).word 0

def setWord (memory : Memory) (address value : UInt32) : Memory :=
  memory.lay address (.ofWord value)

private theorem seen_filter {a : UInt32} {upper : Layer} (h : ¬upper.covers a)
    (layers : List Layer) :
    seen a (layers.filter fun layer => !layer.isUnder upper) = seen a layers := by
  induction layers with
  | nil => rfl
  | cons layer older ih =>
    by_cases hunder : layer.isUnder upper
    · have hbare : ¬layer.covers a := fun ha => h (Layer.covers_of_isUnder hunder ha)
      rw [List.filter_cons_of_neg (by simp [hunder]), ih, seen, if_neg hbare]
    · rw [List.filter_cons_of_pos (by simp [hunder]), seen, seen, ih]

theorem byte_lay (memory : Memory) (address : UInt32) (data : Bytes) (a : UInt32) :
    (memory.lay address data).byte a =
      if (a - address).toNat < data.size then data.byte (a - address).toNat
      else memory.byte a := by
  by_cases h : Layer.covers ⟨address, data⟩ a
  · have hin : (a - address).toNat < data.size := h
    rw [if_pos hin, byte, lay, seen, if_pos h]
  · have hout : ¬(a - address).toNat < data.size := h
    rw [if_neg hout, byte, lay, seen, if_neg h, seen_filter h, byte]

end Memory

namespace Cell

/-- Holds the ASCII digit of the firmware a relaunch asks for. -/
def launchFlag : UInt32 := 0x23F0000A

/-- Reads `'3'` when the GBA firmware was asked for. -/
def gbaMarker : UInt32 := 0x23F0000E

/-- The pad; a button reads as 0 while it is held. -/
def pad : UInt32 := 0x10146000

/-- Reads 1 while the display has not been powered up. -/
def display : UInt32 := 0x10141200

/-- Reads 7 on New models. -/
def coreCount : UInt32 := 0x10140FFC

/-- Non-zero on development units. -/
def unitType : UInt32 := 0x10010010

def parameters : UInt32 := 0x1FFFF000

def operation : UInt32 := 0x1FFFFFF0

/-- Entrypoint the second core polls after a cold boot. -/
def stubEntry : UInt32 := 0x1FFFFFF8

/-- Entrypoint the second core polls during a relaunch. -/
def relaunchEntry : UInt32 := 0x1FFFFFFC

end Cell

/-- A request as the second core found it. -/
structure Request where
  operation : UInt32
  parameters : Vector UInt32 4
  deriving DecidableEq, Repr

/-- Memory together with what has been done to the machine. -/
structure Machine where
  memory : Memory
  /-- Address and length of every copy, in order. -/
  copies : List (UInt32 × Nat)
  /-- Requests the second core carried out, in order. -/
  requests : List Request
  /-- Button states still to be latched. -/
  queue : List Buttons
  flushes : Nat
  msAsleep : Nat
  /-- Entrypoint and arguments of the final jump, once it is taken. -/
  jumped : Option (UInt32 × Option UInt32)

namespace Machine

variable {ε : Type}

def word (m : Machine) (address : UInt32) : UInt32 :=
  m.memory.word address

def setByte (m : Machine) (address : UInt32) (value : UInt8) : Machine :=
  { m with memory := m.memory.lay address #[value] }

def pending (memory : Memory) (code : UInt32) : Request where
  operation := code
  parameters := Vector.ofFn fun i : Fin 4 =>
    memory.word (Cell.parameters + UInt32.ofNat (4 * i.val))

/-- Stores a word. Storing an operation posts it, and the second core carries it out. -/
def setWord (m : Machine) (address value : UInt32) : Machine :=
  let memory := m.memory.setWord address value
  if address = Cell.operation ∧ value ≠ Operation.ready.code then
    { m with
      memory := memory.setWord Cell.operation Operation.ready.code
      requests := m.requests ++ [pending memory value] }
  else { m with memory }

def copy (m : Machine) (address : UInt32) (data : Bytes) : Machine :=
  { m with
    memory := m.memory.lay address data
    copies := m.copies ++ [(address, data.size)] }

def flush (m : Machine) : Machine :=
  { m with flushes := m.flushes + 1 }

def hold (m : Machine) (buttons : Buttons) : Machine :=
  m.setWord Cell.pad (~~~buttons.bits &&& Buttons.known)

/-- Lets time pass, and with it the next queued button state arrive. -/
def sleep (m : Machine) (ms : UInt32) : Machine :=
  let m := { m with msAsleep := m.msAsleep + ms.toNat }
  match m.queue with
  | [] => m
  | next :: rest => { m with queue := rest }.hold next

def jump (m : Machine) (entry : UInt32) (args : Option UInt32) : Machine :=
  { m with jumped := some (entry, args) }

def registers : Option UInt32 → UInt32 × UInt32
  | none => (0, 0)
  | some titleLow => (1, titleLow)

def pressed (m : Machine) : Buttons :=
  ⟨(m.word Cell.pad ^^^ Buttons.known) &&& Buttons.known⟩

def displayOn (m : Machine) : Bool :=
  m.memory.byte Cell.display ≠ 1

def model (m : Machine) : Model :=
  if m.memory.byte Cell.coreCount = 7 then .new else .old

def isDevelopmentUnit (m : Machine) : Bool :=
  m.memory.byte Cell.unitType ≠ 0

def inputs (m : Machine) (config : Config) : Inputs where
  launchFlag := m.memory.byte Cell.launchFlag
  gbaMarker := m.memory.byte Cell.gbaMarker
  buttons := m.pressed
  model := m.model
  displayOn := m.displayOn
  config

/-- An idle Old console at power-on: nothing held, display off, second core ready. -/
def idle : Machine where
  memory :=
    ((Memory.blank.setWord Cell.pad Buttons.known).lay Cell.display #[1]).setWord
      Cell.operation Operation.ready.code
  copies := []
  requests := []
  queue := []
  flushes := 0
  msAsleep := 0
  jumped := none

def isReady (m : Machine) : Bool :=
  m.word Cell.operation = Operation.ready.code

/-- Waits until the second core has finished. Nothing but the core itself could free the cell,
and it acts at once, so a cell that is not free never will be. -/
def awaitReady : Run Notice ε Machine Unit := do
  if (← get).isReady then pure () else Run.stuck

def setParameters (m : Machine) (words : List UInt32) : Machine :=
  words.zipIdx.foldl
    (fun m (value, i) => m.setWord (Cell.parameters + UInt32.ofNat (4 * i)) value) m

/-- Posts an operation once the cell is free, parameters first. -/
def post (operation : Operation) (words : List UInt32) : Run Notice ε Machine Unit := do
  awaitReady
  modify fun m => (m.setParameters words).flush
  Run.emit (.requested operation)
  modify fun m => (m.setWord Cell.operation operation.code).flush

@[simp] private theorem queue_setWord (m : Machine) (address value : UInt32) :
    (m.setWord address value).queue = m.queue := by
  unfold setWord
  dsimp only
  split <;> rfl

theorem queue_sleep (m : Machine) (ms : UInt32) : (m.sleep ms).queue = m.queue.tail := by
  unfold sleep
  dsimp only
  split
  · next h => rw [h, List.tail_nil]
  · next h => rw [hold, queue_setWord, h, List.tail_cons]

/-- Sleeps until the buttons held satisfy `accept`. With no state left to latch the pad never
changes again. -/
def sleepUntil (accept : Buttons → Bool) (ms : UInt32) (m : Machine) : Option Machine :=
  if accept m.pressed then some m
  else if m.queue = [] then none
  else sleepUntil accept ms (m.sleep ms)
termination_by m.queue.length
decreasing_by
  rw [queue_sleep, List.length_tail]
  have : 0 < m.queue.length := List.length_pos_iff.2 (by assumption)
  omega

end Machine
end BootStage
