import BootStage.Proofs.ContainerViews
import BootStage.Proofs.MachineDeeds
import BootStage.Proofs.MemoryWords
/-!
# What is handed over

Sections may be loaded over each other, over the entry cells and over the parameter block: what an
address holds in the end is the byte of the last section loaded over it. The one cell that has to
stay clear is that of operations, or the second core would not be found ready; what the handshake
stores there is what it reads already.
-/

namespace BootStage

namespace Section

variable {s : Section} {a : UInt32}

def Loads (s : Section) (a : UInt32) : Prop :=
  s.address.toNat ≤ a.toNat ∧ a.toNat < s.address.toNat + s.size.toNat

instance (s : Section) (a : UInt32) : Decidable (s.Loads a) :=
  inferInstanceAs (Decidable (_ ∧ _))

/-- Loaded, the payload does not wrap at the top of memory. -/
def BelowTop (s : Section) : Prop :=
  s.address.toNat + s.size.toNat ≤ 0x100000000

instance (s : Section) : Decidable s.BelowTop :=
  inferInstanceAs (Decidable (_ ≤ _))

theorem toNat_sub_address (h : s.Loads a) :
    (a - s.address).toNat = a.toNat - s.address.toNat := by
  have hbound := s.address.toNat_lt
  have ha := a.toNat_lt
  unfold Loads at h
  rw [UInt32.toNat_sub]
  omega

theorem loads_iff (h : s.BelowTop) : s.Loads a ↔ (a - s.address).toNat < s.size.toNat := by
  have hbound := s.address.toNat_lt
  have ha := a.toNat_lt
  unfold BelowTop at h
  unfold Loads
  rw [UInt32.toNat_sub]
  omega

end Section

namespace HandOver

variable {ε : Type} {firm : Firm} {m : Machine} {a : UInt32}

/-! ## Loading -/

def load (firm : Firm) (m : Machine) (list : List Section) : Machine :=
  list.foldl (fun m s => m.copy s.address (firm.payload s)) m

def lastOver (list : List Section) (a : UInt32) : Option Section :=
  list.findRev? (·.Loads a)

/-- The byte at address `a` once the sections of a list were loaded where `old` was. -/
def loaded (firm : Firm) (list : List Section) (a : UInt32) (old : UInt8) : UInt8 :=
  match lastOver list a with
  | some s => firm.bytes.byte (s.start + (a.toNat - s.address.toNat))
  | none => old

/-- The section can be loaded: it has a payload, and a place. -/
def Loadable (firm : Firm) (s : Section) : Prop :=
  s.stop ≤ firm.bytes.size ∧ s.BelowTop

theorem byte_copy {s : Section} (h : Loadable firm s) (m : Machine) (a : UInt32) :
    (m.copy s.address (firm.payload s)).memory.byte a =
      if s.Loads a then firm.bytes.byte (s.start + (a.toNat - s.address.toNat))
      else m.memory.byte a := by
  show (m.memory.lay s.address (firm.payload s)).byte a = _
  rw [Memory.byte_lay, Firm.size_payload h.1]
  by_cases ha : s.Loads a
  · have hin := (Section.loads_iff h.2).1 ha
    rw [if_pos hin, if_pos ha, Firm.byte_payload h.1 hin, Section.toNat_sub_address ha]
  · rw [if_neg (mt (Section.loads_iff h.2).2 ha), if_neg ha]

theorem loaded_cons (firm : Firm) (s : Section) (rest : List Section) (a : UInt32) (old : UInt8) :
    loaded firm (s :: rest) a old =
      loaded firm rest a
        (if s.Loads a then firm.bytes.byte (s.start + (a.toNat - s.address.toNat)) else old) := by
  simp only [loaded, lastOver, List.findRev?]
  cases rest.findRev? (·.Loads a) with
  | some last => rfl
  | none => by_cases ha : s.Loads a <;> simp [ha]

theorem byte_load {list : List Section} (h : ∀ s ∈ list, Loadable firm s) (m : Machine)
    (a : UInt32) :
    (load firm m list).memory.byte a = loaded firm list a (m.memory.byte a) := by
  -- Each section is loaded over what those before it left, so the machine varies.
  induction list generalizing m with
  | nil => rfl
  | cons s rest ih =>
    calc (load firm m (s :: rest)).memory.byte a
        = loaded firm rest a ((m.copy s.address (firm.payload s)).memory.byte a) :=
          ih (fun t ht => h t (List.mem_cons_of_mem s ht)) _
      _ = loaded firm (s :: rest) a (m.memory.byte a) := by
          rw [byte_copy (h s List.mem_cons_self), loaded_cons]

theorem loaded_of_clear {list : List Section} (h : ∀ s ∈ list, ¬s.Loads a) (old : UInt8) :
    loaded firm list a old = old := by
  induction list with
  | nil => rfl
  | cons s rest ih =>
    rw [loaded_cons, if_neg (h s List.mem_cons_self)]
    exact ih fun t ht => h t (List.mem_cons_of_mem s ht)

theorem load_eq (m : Machine) {list : List Section} (h : ∀ s ∈ list, Loadable firm s) :
    load firm m list =
      { m with
        memory := (load firm m list).memory
        copies := m.copies ++ list.map fun s => (s.address, s.size.toNat) } := by
  induction list generalizing m with
  | nil => simp [load]
  | cons s rest ih =>
    have hrest := ih (m.copy s.address (firm.payload s)) fun t ht =>
      h t (List.mem_cons_of_mem s ht)
    rw [load, List.foldl_cons, ← load, hrest]
    simp [Machine.copy, Firm.size_payload (h s List.mem_cons_self).1]

theorem yields_load (m : Machine) (list : List Section) :
    Run.Yields (· = m) (· = load firm m list)
      (list.forM fun s => place s.index s.address (firm.payload s) : Run Notice ε Machine _)
      () := by
  induction list generalizing m with
  | nil => exact .pure
  | cons s rest ih =>
    have hplace : Run.Yields (· = m) (· = m.copy s.address (firm.payload s))
        (place s.index s.address (firm.payload s) : Run Notice ε Machine _) () :=
      Run.Yields.emit.bind (.modify fun _ hs => hs ▸ rfl)
    exact hplace.bind (ih _)

/-! ## The handshake -/

def entryCell : BootKind → UInt32
  | .cold => Cell.stubEntry
  | .relaunch => Cell.relaunchEntry

def asked (kind : BootKind) (m : Machine) : Machine :=
  match kind with
  | .cold => (m.flush.setWord Cell.operation Operation.powerDownScreens.code).flush
  | .relaunch => m

def released (kind : BootKind) (entry : UInt32) (m : Machine) : Machine :=
  ((asked kind m).setWord (entryCell kind) entry).flush

theorem powerDownScreens_ne_ready :
    Operation.powerDownScreens.code ≠ Operation.ready.code := by decide

theorem parameters_apart (ha : Cell.InParameters a) :
    ¬Cell.Spans Cell.operation a ∧ ¬Cell.Spans Cell.stubEntry a := by
  have hblock : Cell.parameters.toNat = 0x1FFFF000 := rfl
  have hop : Cell.operation.toNat = 0x1FFFFFF0 := rfl
  have hstub : Cell.stubEntry.toNat = 0x1FFFFFF8 := rfl
  unfold Cell.InParameters at ha
  rw [Cell.spans_iff (by omega), Cell.spans_iff (by omega)]
  omega

theorem byte_asked (h : m.isReady) (kind : BootKind) (a : UInt32) :
    (asked kind m).memory.byte a = m.memory.byte a := by
  cases kind with
  | relaunch => rfl
  | cold =>
    -- The second core stores what its cell read before.
    have hbytes := Memory.word_eq_iff.1 (Machine.isReady_iff.1 h) a
    simp only [asked, Machine.setWord_operation powerDownScreens_ne_ready, Machine.flush,
      Memory.byte_setWord]
    split
    · next ha => rw [hbytes ha]
    · rfl

theorem asked_eq (kind : BootKind) (m : Machine) :
    asked kind m =
      { m with
        memory := (asked kind m).memory
        requests := m.requests ++ match kind with
          | .cold => [Machine.pending m.memory Operation.powerDownScreens.code]
          | .relaunch => []
        flushes := (asked kind m).flushes } := by
  cases kind with
  | relaunch => simp [asked]
  | cold =>
    have hposted : Machine.pending
        (m.memory.setWord Cell.operation Operation.powerDownScreens.code)
        Operation.powerDownScreens.code =
          Machine.pending m.memory Operation.powerDownScreens.code :=
      Machine.pending_congr _ fun a ha => by
        rw [Memory.byte_setWord, if_neg (parameters_apart ha).1]
    simp only [asked, Machine.setWord_operation powerDownScreens_ne_ready, Machine.flush, hposted]

theorem isReady_asked_cold (m : Machine) : (asked .cold m).isReady := by
  rw [Machine.isReady_iff]
  simp only [asked, Machine.setWord_operation powerDownScreens_ne_ready, Machine.flush,
    Memory.word_setWord]

theorem released_eq (kind : BootKind) (entry : UInt32) (m : Machine) :
    released kind entry m =
      { asked kind m with
        memory := (asked kind m).memory.setWord (entryCell kind) entry
        flushes := (asked kind m).flushes + 1 } := by
  have hcell : entryCell kind ≠ Cell.operation := by cases kind <;> decide
  rw [released, Machine.setWord_of_quiet fun hposts => hcell hposts.1, Machine.flush]

theorem byte_released (h : m.isReady) (kind : BootKind) (entry : UInt32)
    (ha : ¬Cell.Spans (entryCell kind) a) :
    (released kind entry m).memory.byte a = m.memory.byte a := by
  rw [released_eq, Memory.byte_setWord, if_neg ha, byte_asked h]

theorem requests_released (h : m.isReady) (kind : BootKind) (entry : UInt32) :
    (released kind entry m).requests = m.requests ++
      match kind with
      | .cold => [Machine.pending (released kind entry m).memory Operation.powerDownScreens.code]
      | .relaunch => [] := by
  have hrequests : (released kind entry m).requests = (asked kind m).requests := by
    rw [released_eq]
  rw [hrequests, asked_eq]
  cases kind with
  | relaunch => rfl
  | cold =>
    have hposted := Machine.pending_congr Operation.powerDownScreens.code
      fun a ha => byte_released h .cold entry (parameters_apart ha).2
    simp only [hposted]

theorem yields_awaitReady (h : m.isReady) :
    Run.Yields (· = m) (· = m) (Machine.awaitReady : Run Notice ε Machine Unit) () := by
  refine Run.Yields.get.bind ?_
  rw [if_pos h]
  exact .pure

theorem yields_releaseCell (h : m.isReady) (kind : BootKind) :
    Run.Yields (· = m) (· = asked kind m) (releaseCell kind : Run Notice ε Machine UInt32)
      (entryCell kind) := by
  cases kind with
  | relaunch => exact .pure
  | cold =>
    have hpost : Run.Yields (· = m) (· = asked .cold m)
        (Machine.post .powerDownScreens [] : Run Notice ε Machine Unit) () := by
      refine (yields_awaitReady h).bind ?_
      refine (Run.Yields.modify (J := (· = m.flush)) fun _ hs => hs ▸ rfl).bind ?_
      exact Run.Yields.emit.bind (.modify fun _ hs => hs ▸ rfl)
    exact hpost.bind ((yields_awaitReady (isReady_asked_cold m)).bind .pure)

theorem yields_launch (firm : Firm) (plan : Plan)
    (h : (load firm m (sections firm plan.title)).isReady) :
    Run.Yields (· = m)
      (· = (released plan.kind firm.header.arm11Entry
        (load firm m (sections firm plan.title))).jump firm.header.arm9Entry plan.launched)
      (launch firm plan : Run Notice ε Machine Unit) () := by
  have hrelease : Run.Yields (· = m)
      (· = released plan.kind firm.header.arm11Entry (load firm m (sections firm plan.title)))
      (release firm plan : Run Notice ε Machine Unit) () := by
    refine (yields_load m _).bind ((yields_releaseCell h plan.kind).bind ?_)
    exact (Run.Yields.modify fun _ hs => hs ▸ rfl).bind .emit
  exact hrelease.bind (.modify fun _ hs => hs ▸ rfl)

/-! ## The machine handed over -/

/-- What became of the machine `m` when a firmware was launched by a plan. -/
structure HandedOver (firm : Firm) (plan : Plan) (m after : Machine) : Prop where
  /-- One jump is taken, and it comes last. -/
  jumps : ∃ before : Machine, after = before.jump firm.header.arm9Entry plan.launched ∧
    before.jumped = m.jumped
  chosen : ∀ s, s ∈ sections firm plan.title ↔
    firm.section? s.index = some s ∧ (plan.title = .native → 1 ≤ s.index)
  ascending : (sections firm plan.title).Pairwise fun lower upper => lower.index < upper.index
  copies : after.copies =
    m.copies ++ (sections firm plan.title).map fun s => (s.address, s.size.toNat)
  requests : after.requests = m.requests ++
    match plan.kind with
    | .cold => [Machine.pending after.memory Operation.powerDownScreens.code]
    | .relaunch => []
  entry : after.word (entryCell plan.kind) = firm.header.arm11Entry
  bytes : ∀ a, ¬Cell.Spans (entryCell plan.kind) a →
    after.memory.byte a = loaded firm (sections firm plan.title) a (m.memory.byte a)

theorem mem_sections {title : Title} {s : Section} :
    s ∈ sections firm title ↔
      firm.section? s.index = some s ∧ (title = .native → 1 ≤ s.index) := by
  unfold sections
  rw [List.mem_filter, ContainerHeader.mem_sectionList, decide_eq_true_iff, Firm.section?]
  cases title <;> simp [firstSlot]

theorem isReady_load {list : List Section} (h : m.isReady)
    (hload : ∀ s ∈ list, Loadable firm s)
    (hclear : ∀ s ∈ list, ∀ a, s.Loads a → ¬Cell.Spans Cell.operation a) :
    (load firm m list).isReady := by
  rw [Machine.isReady_iff] at h ⊢
  rw [← h]
  refine Memory.word_congr fun a ha => ?_
  rw [byte_load hload, loaded_of_clear fun s hs hover => hclear s hs a hover ha]

/-- From a machine whose second core is ready a launch ends in its jump, whatever is loaded over
what, as long as no section wraps at the top of memory or is loaded over the cell of
operations. -/
theorem launch_hands_over {bytes : Bytes} (hparse : Firm.parse bytes = .ok firm) (plan : Plan)
    (hready : m.isReady) (htop : ∀ s ∈ sections firm plan.title, s.BelowTop)
    (hclear : ∀ s ∈ sections firm plan.title, ∀ a, s.Loads a → ¬Cell.Spans Cell.operation a) :
    ((launch firm plan : Run Notice ε Machine Unit) m).result = .ok () ∧
      HandedOver firm plan m ((launch firm plan : Run Notice ε Machine Unit) m).state := by
  have hfits : ∀ s ∈ sections firm plan.title, s.stop ≤ firm.bytes.size := fun s hs =>
    Firm.sectionsFit_of_parse hparse _ s (mem_sections.1 hs).1
  have hload : ∀ s ∈ sections firm plan.title, Loadable firm s :=
    fun s hs => ⟨hfits s hs, htop s hs⟩
  have hstill := isReady_load hready hload hclear
  obtain ⟨hok, hstate⟩ := yields_launch (ε := ε) firm plan hstill m rfl
  refine ⟨hok, ?_⟩
  rw [hstate]
  have hloaded := load_eq m hload
  have hreleased := released_eq plan.kind firm.header.arm11Entry
    (load firm m (sections firm plan.title))
  have hasked := asked_eq plan.kind (load firm m (sections firm plan.title))
  constructor
  case jumps =>
    refine ⟨_, rfl, ?_⟩
    rw [hreleased, hasked, hloaded]
  case chosen => exact fun _ => mem_sections
  case ascending => exact ContainerHeader.sectionList_ascending.filter _
  case copies =>
    show (released _ _ _).copies = _
    rw [hreleased, hasked, hloaded]
  case requests =>
    show (released _ _ _).requests = _
    rw [requests_released hstill, hloaded]
    rfl
  case entry =>
    show (released _ _ _).memory.word _ = _
    rw [hreleased, Memory.word_setWord]
  case bytes =>
    intro a ha
    show (released _ _ _).memory.byte a = _
    rw [byte_released hstill _ _ ha, byte_load hload]

/-- Section 2 is loaded over the end of section 1, and both over the entry cell of a cold boot. -/
def overlaidSections : Bytes :=
  let zeros (n : Nat) : List UInt8 := List.replicate n 0
  ([0x46, 0x49, 0x52, 0x4D, 0x00, 0x00, 0x00, 0x00, 0x00, 0x00, 0xF8, 0x1F] ++ (zeros 0x64 ++
    ([0x00, 0x02, 0x00, 0x00, 0xF4, 0xFF, 0xFF, 0x1F, 0x08, 0x00, 0x00, 0x00] ++ (zeros 0x24 ++
    ([0x08, 0x02, 0x00, 0x00, 0xF6, 0xFF, 0xFF, 0x1F, 0x08, 0x00, 0x00, 0x00] ++ (zeros 0x154 ++
    (List.replicate 8 0x11 ++ List.replicate 8 0x22))))))).toArray

/-- The later section wins, and the entrypoint is stored over both. -/
theorem launch_hands_over_overlaid :
    ∃ firm, ∃ after : Machine, Firm.parse overlaidSections = .ok firm ∧
      ((launch firm PatchSet.recoveryPlan : Run Notice BootFailure Machine Unit) .idle).state =
        after ∧
      HandedOver firm PatchSet.recoveryPlan .idle after ∧
      after.word Cell.stubEntry = 0x1FF80000 ∧
      [0x1FFFFFF5, 0x1FFFFFF6, 0x1FFFFFF7, 0x1FFFFFFC].map after.memory.byte =
        [0x11, 0x22, 0x22, 0x22] := by
  let firm : Firm := ⟨ContainerHeader.read overlaidSections, overlaidSections⟩
  have hparse : Firm.parse overlaidSections = .ok firm :=
    Firm.parse_of_sound (by decide +kernel) (by decide +kernel) (by decide +kernel)
  have hplaced : ∀ s ∈ sections firm PatchSet.recoveryPlan.title,
      Cell.operation.toNat + 4 ≤ s.address.toNat ∧ s.BelowTop := by decide +kernel
  have hready : Machine.idle.isReady := by decide +kernel
  have hclear : ∀ s ∈ sections firm PatchSet.recoveryPlan.title, ∀ a, s.Loads a →
      ¬Cell.Spans Cell.operation a := by
    intro s hs a hloads hspans
    have hcell : Cell.operation.toNat = 0x1FFFFFF0 := rfl
    have habove := (hplaced s hs).1
    unfold Section.Loads at hloads
    rw [Cell.spans_iff (by omega)] at hspans
    omega
  have hhanded := (launch_hands_over (ε := BootFailure) hparse PatchSet.recoveryPlan hready
    (fun s hs => (hplaced s hs).2) hclear).2
  have hbyte := hhanded.bytes
  refine ⟨firm, _, hparse, rfl, hhanded, hhanded.entry.trans (by decide +kernel), ?_⟩
  simp only [List.map_cons, List.map_nil]
  rw [hbyte _ (by decide), hbyte _ (by decide), hbyte _ (by decide), hbyte _ (by decide)]
  decide +kernel

end HandOver
end BootStage
