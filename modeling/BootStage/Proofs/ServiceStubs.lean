import BootStage.Proofs.KernelAddresses
import Mathlib.Data.List.Chain
/-!
# Service calls in a patched kernel

A call that is added comes in two writes: its code in the free space, and the entry of the table
that leads there. Where the table lies apart from the free space, neither call undoes the other,
and an installation that fails has written nothing.
-/

namespace BootStage

namespace ServiceCall

variable {kernel : Kernel} {number pos : Nat} {routine code : Bytes} {image : KernelImage}

/-! ## A call and its code -/

/-- In the section `code` the call `number` enters `routine`, which lies at `pos`. -/
structure Enters (kernel : Kernel) (number pos : Nat) (routine code : Bytes) : Prop where
  entryFits : kernel.slot number + 4 ≤ code.size
  entry : (code.word (kernel.slot number)).toNat = 0xFFF00000 + pos
  routineFits : pos + routine.size ≤ code.size
  routine : code.window pos routine.size = routine

def Takes (kernel : Kernel) (number pos len i : Nat) : Prop :=
  kernel.slot number ≤ i ∧ i < kernel.slot number + 4 ∨ pos ≤ i ∧ i < pos + len

def callWrites (kernel : Kernel) (number pos : Nat) (routine : Bytes) : List Write :=
  [⟨pos, routine⟩, entryWrite kernel number pos]

theorem callWrites_apart {start len : Nat}
    (hroutine : pos + routine.size ≤ start ∨ start + len ≤ pos)
    (hentry : kernel.slot number + 4 ≤ start ∨ start + len ≤ kernel.slot number) :
    ∀ write ∈ callWrites kernel number pos routine, write.Apart start len :=
  List.forall_mem_cons.2 ⟨hroutine, List.forall_mem_singleton.2 hentry⟩

theorem getElem?_callWrites {i : Nat} (h : ¬Takes kernel number pos routine.size i) :
    (code.layAll (callWrites kernel number pos routine))[i]? = code[i]? := by
  unfold Takes at h
  have hapart : ∀ write ∈ callWrites kernel number pos routine, write.Apart i 1 :=
    callWrites_apart (by omega) (by omega)
  exact Bytes.getElem?_layAll_of_apart hapart (Nat.le_refl i) (Nat.lt_succ_self i)

theorem enters_callWrites (hsize : code.size ≤ 0x100000) (hroutine : 0 < routine.size)
    (hfits : pos + routine.size ≤ code.size) (hslot : kernel.slot number + 4 ≤ code.size)
    (hapart : kernel.slot number + 4 ≤ pos ∨ pos + routine.size ≤ kernel.slot number) :
    Enters kernel number pos routine (code.layAll (callWrites kernel number pos routine)) := by
  rw [callWrites, Bytes.layAll_mk_cons]
  constructor
  case entryFits => rwa [Bytes.size_layAll, Bytes.size_overwrite]
  case routineFits => rwa [Bytes.size_layAll, Bytes.size_overwrite]
  case entry =>
    rw [word_entryWrite (by rwa [Bytes.size_overwrite])]
    exact Arena.toNat_address (by omega)
  case routine =>
    have hentry : ∀ write ∈ [entryWrite kernel number pos], write.Apart pos routine.size :=
      List.forall_mem_singleton.2 hapart
    rw [Bytes.window_congr fun i => Bytes.getElem?_layAll_of_apart hentry]
    exact Bytes.extract_overwrite code pos routine hfits

theorem Enters.layAll {writes : List Write} (h : Enters kernel number pos routine code)
    (hslot : ∀ write ∈ writes, write.Apart (kernel.slot number) 4)
    (hroutine : ∀ write ∈ writes, write.Apart pos routine.size) :
    Enters kernel number pos routine (code.layAll writes) := by
  constructor
  case entryFits => exact (Bytes.size_layAll code writes).symm ▸ h.entryFits
  case routineFits => exact (Bytes.size_layAll code writes).symm ▸ h.routineFits
  case entry =>
    rw [Bytes.word_congr fun i => Bytes.getElem?_layAll_of_apart hslot]
    exact h.entry
  case routine =>
    rw [Bytes.window_congr fun i => Bytes.getElem?_layAll_of_apart hroutine]
    exact h.routine

/-! ## Single installations -/

theorem Backdoor.install_of_present {current : UInt32}
    (hcurrent : image.code.word? (kernel.slot Backdoor.number) = some current)
    (hpresent : current ≠ 0) :
    Backdoor.install kernel image = ⟨.ok false, image, [.backdoorPresent current]⟩ := by
  unfold Backdoor.install
  rw [Run.bind_of_eq_ok (m := get) rfl, hcurrent, Run.bind_of_eq_ok (m := Run.orFail _ _) rfl,
    if_neg hpresent]
  rfl

theorem Backdoor.install_of_room
    (hfree : image.code.word? (kernel.slot Backdoor.number) = some 0)
    (hlimit : image.code.size < positionLimit)
    (hroom : image.arena.next + Backdoor.code.size ≤ image.arena.stop)
    (hfits : image.arena.next + Backdoor.code.size ≤ image.code.size) :
    (Backdoor.install kernel image).result = .ok true := by
  have hslot := (Bytes.word?_eq_some_iff.1 hfree).1
  unfold Backdoor.install
  rw [Run.bind_of_eq_ok (m := get) rfl, hfree, Run.bind_of_eq_ok (m := Run.orFail _ _) rfl,
    if_pos rfl, Run.bind_of_eq_ok (KernelEdit.place_of_room hroom hfits hlimit)]
  rw [← Bytes.size_overwrite image.code image.arena.next code] at hlimit hslot
  rw [Run.bind_of_eq_ok (KernelEdit.onCode_of_eq_ok (point_of_fits hslot hlimit) _)]
  rfl

theorem Backdoor.install_eq_error {stop : Stop PatchFailure}
    (hlimit : image.code.size < positionLimit)
    (h : (Backdoor.install kernel image).result = .error stop) :
    (Backdoor.install kernel image).state = image := by
  cases hcurrent : image.code.word? (kernel.slot Backdoor.number) with
  | none =>
    unfold Backdoor.install
    rw [Run.bind_of_eq_ok (m := get) rfl, hcurrent]
    rfl
  | some current =>
    by_cases hfree : current = 0
    · subst hfree
      rcases image.placing_cases ⟨target, code⟩ with ⟨err, hfailed⟩ | ⟨hroom, hfits, -⟩
      · unfold Backdoor.install
        rw [Run.bind_of_eq_ok (m := get) rfl, hcurrent,
          Run.bind_of_eq_ok (m := Run.orFail _ _) rfl, if_pos rfl, Run.bind_of_eq_error hfailed]
      · rw [install_of_room hcurrent hlimit hroom hfits] at h
        cases h
    · rw [install_of_present hcurrent hfree] at h
      cases h

theorem Info.blockOffset_of_fits {stub : Bytes} {offset : Nat}
    (hfound : stub.occurrence? Info.magic = some offset)
    (hblock : offset + Info.blockSize ≤ stub.size) (image : KernelImage) :
    Info.blockOffset stub image = ⟨.ok offset, image, []⟩ := by
  have hlong : ¬(stub.extract offset stub.size).size < Info.blockSize := by
    rw [Array.size_extract]
    omega
  unfold Info.blockOffset
  rw [hfound, Run.bind_of_eq_ok (m := Run.orFail _ _) rfl,
    Bytes.range?_eq_some (by omega) (Nat.le_refl _)]
  dsimp only
  rw [if_neg hlong]
  rfl

theorem Info.fill_of_fits {config : Config} {build : Build} {offset : Nat}
    (hinside : pos + offset + (Info.block config build).size ≤ code.size)
    (hslot : kernel.slot Info.number + 4 ≤ code.size) (hlimit : code.size < positionLimit) :
    (Edit.write Info.target (pos + offset) (Info.block config build) >>= fun _ =>
      point Info.target kernel Info.number pos) code =
        ⟨.ok (), (code.overwrite (pos + offset) (Info.block config build)).layAll
          [entryWrite kernel Info.number pos], []⟩ := by
  rw [Run.bind_of_eq_ok (Edit.write_of_fits hinside hlimit)]
  rw [← Bytes.size_overwrite code (pos + offset) (Info.block config build)] at hlimit hslot
  exact point_of_fits hslot hlimit

/-- The block lies in the stub, so with the entry in the section nothing fails behind placing. -/
theorem Info.install_of_room {stub : Info.Stub} {config : Config} {offset : Nat}
    (hfound : stub.code.occurrence? Info.magic = some offset)
    (hblock : offset + Info.blockSize ≤ stub.code.size)
    (hslot : kernel.slot Info.number + 4 ≤ image.code.size)
    (hlimit : image.code.size < positionLimit)
    (hroom : image.arena.next + stub.code.size ≤ image.arena.stop)
    (hfits : image.arena.next + stub.code.size ≤ image.code.size) :
    (Info.install kernel stub config image).result = .ok () := by
  unfold Info.install
  rw [Run.bind_of_eq_ok (blockOffset_of_fits hfound hblock image),
    Run.bind_of_eq_ok (KernelEdit.place_of_room hroom hfits hlimit)]
  rw [← Bytes.size_overwrite image.code image.arena.next stub.code] at hlimit hslot hfits
  generalize image.code.overwrite image.arena.next stub.code = placed at hlimit hslot hfits ⊢
  have hinside : image.arena.next + offset + (Info.block config stub.build).size ≤ placed.size := by
    rw [Info.size_block]
    omega
  rw [Run.bind_of_eq_ok (KernelEdit.onCode_of_eq_ok (fill_of_fits hinside hslot hlimit) _)]
  rfl

theorem Info.install_eq_error {stub : Info.Stub} {config : Config} {stop : Stop PatchFailure}
    (hlimit : image.code.size < positionLimit)
    (hslot : kernel.slot Info.number + 4 ≤ image.code.size)
    (h : (Info.install kernel stub config image).result = .error stop) :
    (Info.install kernel stub config image).state = image := by
  cases hoffset : (Info.blockOffset stub.code image).result with
  | error err =>
    unfold Info.install
    rw [Run.bind_of_error hoffset, state_blockOffset]
  | ok offset =>
    obtain ⟨hfound, hblock⟩ := blockOffset_eq_ok hoffset
    rcases image.placing_cases ⟨target, stub.code⟩ with ⟨err, hfailed⟩ | ⟨hroom, hfits, -⟩
    · unfold Info.install
      rw [Run.bind_of_ok hoffset, state_blockOffset, Run.bind_of_eq_error hfailed]
    · rw [install_of_room hfound hblock hslot hlimit hroom hfits] at h
      cases h

/-! ## Both calls -/

/-- No entry of the table, up to the last call that is added, reaches into the free space. -/
def TableApart (kernel : Kernel) (arena : Arena) : Prop :=
  ∀ number ≤ Backdoor.number, ∀ i, kernel.slot number ≤ i → i < kernel.slot number + 4 →
    ¬(arena.next ≤ i ∧ i < arena.stop)

def Info.filled (stub : Info.Stub) (config : Config) (offset : Nat) : Bytes :=
  stub.code.overwrite offset (Info.block config stub.build)

/-- How the section `after` comes by its backdoor, where the identifying call has `len` bytes at
`pos`. Whatever else there was in `before` is kept. -/
inductive Backed (kernel : Kernel) (before after : Bytes) (pos len : Nat) : Prop
  | kept (hpresent : before.word (kernel.slot Backdoor.number) ≠ 0)
    (hsame : after.word (kernel.slot Backdoor.number) = before.word (kernel.slot Backdoor.number))
    (hframe : ∀ i, ¬Takes kernel Info.number pos len i → after[i]? = before[i]?)
  | added (front : Nat) (hfree : before.word (kernel.slot Backdoor.number) = 0)
    (henters : Enters kernel Backdoor.number front Backdoor.code after)
    (hfront : front + Backdoor.code.size ≤ pos)
    (hframe : ∀ i, ¬Takes kernel Backdoor.number front Backdoor.code.size i →
      ¬Takes kernel Info.number pos len i → after[i]? = before[i]?)

/-- The section `after` has both calls: the stub of the identifying one is at `pos`, with its block
at the first mark in it. -/
structure Served (kernel : Kernel) (stub : Info.Stub) (config : Config) (before after : Bytes)
    (pos offset : Nat) : Prop where
  mark : IsLeast {place | OccursAt stub.code Info.magic place} offset
  blockFits : offset + Info.blockSize ≤ stub.code.size
  info : Enters kernel Info.number pos (Info.filled stub config offset) after
  backdoor : Backed kernel before after pos stub.code.size
  size : after.size = before.size

variable {arena : Arena} {before after : Bytes} {stub : Info.Stub} {config : Config}
  {offset len : Nat}

theorem TableApart.slot (h : TableApart kernel arena) (hnumber : number ≤ Backdoor.number)
    (hlen : 0 < len) (hstart : arena.next ≤ pos) (hstop : pos + len ≤ arena.stop) :
    kernel.slot number + 4 ≤ pos ∨ pos + len ≤ kernel.slot number := by
  -- Where the two meet, the higher one of their starts is in both.
  have hmeet := h number hnumber (max (kernel.slot number) pos) (Nat.le_max_left _ _)
  omega

theorem Enters.word_ne_zero (h : Enters kernel number pos routine code) :
    code.word (kernel.slot number) ≠ 0 := by
  intro hzero
  have hentry := h.entry
  rw [hzero] at hentry
  change 0 = _ at hentry
  omega

theorem Backed.word_ne_zero (h : Backed kernel before after pos len) :
    after.word (kernel.slot Backdoor.number) ≠ 0 := by
  cases h with
  | kept hpresent hsame => rwa [hsame]
  | added front _ henters => exact henters.word_ne_zero

@[simp] theorem Info.size_filled (stub : Info.Stub) (config : Config) (offset : Nat) :
    (Info.filled stub config offset).size = stub.code.size :=
  Bytes.size_overwrite _ _ _

theorem Backdoor.writes_eq (kernel : Kernel) (pos : Nat) :
    Backdoor.writes kernel pos = callWrites kernel Backdoor.number pos Backdoor.code :=
  rfl

/-- Filling the block of a placed stub comes to placing the filled stub. -/
theorem Info.layAll_writes (h : offset + Info.blockSize ≤ stub.code.size) :
    code.layAll (Info.writes kernel stub config pos offset) =
      code.layAll (callWrites kernel Info.number pos (Info.filled stub config offset)) := by
  have hinside : offset + (Info.block config stub.build).size ≤ stub.code.size := by
    rwa [Info.size_block]
  rw [Info.writes, Bytes.layAll_mk_cons, Bytes.layAll_mk_cons,
    Bytes.overwrite_overwrite_inside code stub.code _ hinside, ← Bytes.layAll_mk_cons, callWrites,
    Info.filled]

theorem slot_info_lt (kernel : Kernel) :
    kernel.slot Info.number + 4 ≤ kernel.slot Backdoor.number := by
  unfold Kernel.slot Info.number Backdoor.number
  omega

section

variable (hsize : code.size ≤ 0x100000) (hslot : kernel.slot Backdoor.number + 4 ≤ code.size)
  (hapart : TableApart kernel arena)

include hsize hslot hapart

theorem enters_free (hnumber : number ≤ Backdoor.number) (hlong : 0 < routine.size)
    (hstart : arena.next ≤ pos) (hroom : pos + routine.size ≤ arena.stop)
    (hfits : pos + routine.size ≤ code.size) :
    Enters kernel number pos routine (code.layAll (callWrites kernel number pos routine)) := by
  have hbefore : kernel.slot number ≤ kernel.slot Backdoor.number :=
    Nat.add_le_add_left (Nat.mul_le_mul_left 4 hnumber) kernel.table
  exact enters_callWrites hsize hlong hfits (by omega) (hapart.slot hnumber hlong hstart hroom)

theorem served_kept (hpresent : code.word (kernel.slot Backdoor.number) ≠ 0)
    (hmark : IsLeast {place | OccursAt stub.code Info.magic place} offset)
    (hblock : offset + Info.blockSize ≤ stub.code.size)
    (hroom : arena.next + stub.code.size ≤ arena.stop)
    (hfits : arena.next + stub.code.size ≤ code.size) :
    Served kernel stub config code
      (code.layAll (Info.writes kernel stub config arena.next offset)) arena.next offset := by
  have hlong : 0 < stub.code.size := Nat.lt_of_lt_of_le (by decide) (Nat.le_of_add_left_le hblock)
  rw [Info.layAll_writes hblock]
  rw [← Info.size_filled stub config offset] at hlong hroom hfits
  have hstub := hapart.slot (Nat.le_refl _) hlong (Nat.le_refl _) hroom
  have hentry := callWrites_apart hstub.symm (.inl (slot_info_lt kernel))
  constructor
  case mark => exact hmark
  case blockFits => exact hblock
  case info =>
    exact enters_free hsize hslot hapart (by decide) hlong (Nat.le_refl _) hroom hfits
  case backdoor =>
    refine .kept hpresent (Bytes.word_congr fun i => ?_) fun i hi => ?_
    · exact Bytes.getElem?_layAll_of_apart hentry
    · exact getElem?_callWrites (by rwa [Info.size_filled])
  case size => exact Bytes.size_layAll _ _

theorem served_added (hfree : code.word (kernel.slot Backdoor.number) = 0)
    (hmark : IsLeast {place | OccursAt stub.code Info.magic place} offset)
    (hblock : offset + Info.blockSize ≤ stub.code.size)
    (hfront : arena.next + Backdoor.code.size ≤ pos) (hroom : pos + stub.code.size ≤ arena.stop)
    (hfits : pos + stub.code.size ≤ code.size) :
    Served kernel stub config code
      ((code.layAll (Backdoor.writes kernel arena.next)).layAll
        (Info.writes kernel stub config pos offset)) pos offset := by
  have hlong : 0 < stub.code.size := Nat.lt_of_lt_of_le (by decide) (Nat.le_of_add_left_le hblock)
  have hstart : arena.next ≤ pos := Nat.le_trans (Nat.le_add_right _ _) hfront
  have hroom' : arena.next + Backdoor.code.size ≤ arena.stop := by omega
  have hbackdoor := enters_free hsize hslot hapart (Nat.le_refl _) (by decide) (Nat.le_refl _)
    hroom' (by omega)
  rw [Backdoor.writes_eq, Info.layAll_writes hblock]
  rw [← Info.size_filled stub config offset] at hlong hroom hfits
  have hstub := hapart.slot (Nat.le_refl _) hlong hstart hroom
  have hcode := hapart.slot (by decide : Info.number ≤ Backdoor.number)
    (by decide : 0 < Backdoor.code.size) (Nat.le_refl _) hroom'
  have hentry := callWrites_apart hstub.symm (.inl (slot_info_lt kernel))
  generalize hbacked : code.layAll (callWrites kernel Backdoor.number arena.next Backdoor.code) =
    backed at hbackdoor ⊢
  have hsame : backed.size = code.size := by rw [← hbacked, Bytes.size_layAll]
  constructor
  case mark => exact hmark
  case blockFits => exact hblock
  case info =>
    rw [← hsame] at hsize hslot hfits
    exact enters_free hsize hslot hapart (by decide) hlong hstart hroom hfits
  case backdoor =>
    refine .added arena.next hfree (hbackdoor.layAll hentry ?_) hfront fun i hi hi' => ?_
    · exact callWrites_apart (.inr hfront) hcode
    · rw [getElem?_callWrites (by rwa [Info.size_filled]), ← hbacked, getElem?_callWrites hi]
  case size => rw [Bytes.size_layAll, hsame]

end

variable {installed : Bool}

theorem served_of_install {backed : KernelImage} (hsize : image.code.size ≤ 0x100000)
    (hapart : TableApart kernel image.arena)
    (hbackdoor : (Backdoor.install kernel image).result = .ok installed)
    (hbacked : (Backdoor.install kernel image).state = backed)
    (hinfo : (Info.install kernel stub config backed).result = .ok ()) :
    ∃ pos offset, Served kernel stub config image.code
      (Info.install kernel stub config backed).state.code pos offset := by
  obtain ⟨offset, hfound, hblock, hroom, hfits, hfilled⟩ := Info.install_eq_ok hinfo
  have hmark := (Bytes.occurrence?_eq_some_iff (by decide)).1 hfound
  obtain ⟨current, hcurrent, hcases⟩ := Backdoor.install_eq_ok hbackdoor
  obtain ⟨hslot, rfl⟩ := Bytes.word?_eq_some_iff.1 hcurrent
  refine ⟨backed.arena.next, offset, ?_⟩
  rw [hfilled]
  rw [hbacked] at hcases
  dsimp only
  rcases hcases with ⟨hpresent, -, rfl⟩ | ⟨hfree, -, -, -, hlaid⟩
  · exact served_kept hsize hslot hapart hpresent hmark hblock hroom hfits
  · have hcode : backed.code = image.code.layAll (Backdoor.writes kernel image.arena.next) := by
      rw [hlaid]
    have hnext : backed.arena.next = Arena.aligned (image.arena.next + Backdoor.code.size) := by
      rw [hlaid, Arena.behind_next]
    have hstop : backed.arena.stop = image.arena.stop := by rw [hlaid, Arena.behind_stop]
    have hfront := Arena.le_aligned (image.arena.next + Backdoor.code.size)
    rw [← hnext] at hfront
    rw [hstop] at hroom
    rw [hcode, Bytes.size_layAll] at hfits
    rw [hcode]
    exact served_added hsize hslot hapart hfree hmark hblock hfront hroom hfits

theorem taken_of_install (hsize : image.code.size ≤ 0x100000)
    (hapart : TableApart kernel image.arena)
    (h : (Backdoor.install kernel image).result = .ok installed) :
    kernel.slot Backdoor.number + 4 ≤ image.code.size ∧
      (Backdoor.install kernel image).state.code.size = image.code.size ∧
      (Backdoor.install kernel image).state.code.word (kernel.slot Backdoor.number) ≠ 0 := by
  obtain ⟨current, hcurrent, hcases⟩ := Backdoor.install_eq_ok h
  obtain ⟨hslot, rfl⟩ := Bytes.word?_eq_some_iff.1 hcurrent
  rcases hcases with ⟨hpresent, -, hkept⟩ | ⟨hfree, -, hroom, hfits, hlaid⟩
  · rw [hkept]
    exact ⟨hslot, rfl, hpresent⟩
  · have hbackdoor := enters_free hsize hslot hapart (Nat.le_refl _) (by decide) (Nat.le_refl _)
      hroom hfits
    rw [hlaid, Backdoor.writes_eq]
    dsimp only
    exact ⟨hslot, Bytes.size_layAll _ _, hbackdoor.word_ne_zero⟩

/-- With a free entry and room for both, both installations succeed. -/
theorem installs_of_room (hlimit : image.code.size < positionLimit)
    (hfree : image.code.word? (kernel.slot Backdoor.number) = some 0)
    (hfound : stub.code.occurrence? Info.magic = some offset)
    (hblock : offset + Info.blockSize ≤ stub.code.size) (hstop : image.arena.stop ≤ image.code.size)
    (hroom : (image.arena.behind Backdoor.code.size).next + stub.code.size ≤ image.arena.stop) :
    (Backdoor.install kernel image).result = .ok true ∧
      (Info.install kernel stub config (Backdoor.install kernel image).state).result = .ok () := by
  have hbehind := Arena.le_aligned (image.arena.next + Backdoor.code.size)
  rw [Arena.behind_next] at hroom
  have hbackdoor : (Backdoor.install kernel image).result = .ok true :=
    Backdoor.install_of_room hfree hlimit (by omega) (by omega)
  refine ⟨hbackdoor, ?_⟩
  have hslot := (Bytes.word?_eq_some_iff.1 hfree).1
  have hentries := slot_info_lt kernel
  obtain ⟨current, hcurrent, hcases⟩ := Backdoor.install_eq_ok hbackdoor
  obtain rfl := Option.some.inj (hfree.symm.trans hcurrent)
  rcases hcases with ⟨hpresent, -⟩ | ⟨-, -, -, -, hlaid⟩
  · exact absurd rfl hpresent
  · rw [hlaid]
    generalize hbacked : image.code.layAll (Backdoor.writes kernel image.arena.next) = backed
    have hsame : backed.size = image.code.size := by rw [← hbacked, Bytes.size_layAll]
    rw [← hsame] at hlimit hstop hslot
    apply Info.install_of_room hfound hblock
    · dsimp only
      omega
    · exact hlimit
    · exact hroom
    · exact Nat.le_trans hroom hstop

/-- In a section of up to 1 MiB whose table reaches nowhere into its free space, both calls are
there when their installations succeed one after the other, whatever the stub and the
configuration. An installation that fails changes neither the section nor its free space, and
neither does installing the backdoor once more. -/
theorem installations_serve (hsize : image.code.size ≤ 0x100000)
    (hapart : TableApart kernel image.arena) (stub : Info.Stub) (config : Config) :
    let first := Backdoor.install kernel image
    let second := Info.install kernel stub config first.state
    (∀ installed, first.result = .ok installed →
      (second.result = .ok () →
        ∃ pos offset, Served kernel stub config image.code second.state.code pos offset) ∧
      (∀ stop, second.result = .error stop → second.state = first.state) ∧
      ∀ later ∈ [first.state, second.state],
        (Backdoor.install kernel later).result = .ok false ∧
          (Backdoor.install kernel later).state = later) ∧
    ∀ stop, first.result = .error stop → first.state = image := by
  intro first second
  have hlimit : image.code.size < positionLimit := Nat.lt_of_le_of_lt hsize (by decide)
  refine ⟨fun installed hbackdoor => ?_, fun stop => Backdoor.install_eq_error hlimit⟩
  obtain ⟨hslot, hsame, htaken⟩ := taken_of_install hsize hapart hbackdoor
  change first.state.code.size = image.code.size at hsame
  have hserved : second.result = .ok () →
      ∃ pos offset, Served kernel stub config image.code second.state.code pos offset :=
    served_of_install hsize hapart hbackdoor rfl
  have hfailed : ∀ stop, second.result = .error stop → second.state = first.state := by
    have hentries := slot_info_lt kernel
    exact fun stop => Info.install_eq_error (by omega) (by omega)
  have hagain : ∀ later : KernelImage, kernel.slot Backdoor.number + 4 ≤ later.code.size →
      later.code.word (kernel.slot Backdoor.number) ≠ 0 →
        (Backdoor.install kernel later).result = .ok false ∧
          (Backdoor.install kernel later).state = later := by
    intro later hfits hpresent
    rw [Backdoor.install_of_present (Bytes.word?_eq_some_iff.2 ⟨hfits, rfl⟩) hpresent]
    exact ⟨rfl, rfl⟩
  refine ⟨hserved, hfailed, List.forall_mem_cons.2 ⟨?_, List.forall_mem_singleton.2 ?_⟩⟩
  · exact hagain _ (by omega) htaken
  · cases hresult : second.result with
    | error stop =>
      rw [hfailed stop hresult]
      exact hagain _ (by omega) htaken
    | ok done =>
      obtain ⟨pos, offset, hboth⟩ := hserved hresult
      exact hagain _ (by rwa [hboth.size]) hboth.backdoor.word_ne_zero

theorem occurrence?_filler {front : List UInt8} {n : Nat} (hn : 5 ≤ n)
    (hfront : (front ++ [0xFF]).IsChain fun b next => ¬(b = 0xFF ∧ next = 0xFF)) :
    Bytes.occurrence? (front ++ List.replicate n 0xFF).toArray Arena.filler =
      some front.length := by
  have hfive : Arena.filler.size = 5 := rfl
  have hbyte : ∀ i < 5, Arena.filler[i]? = some 0xFF := by decide
  refine (Bytes.occurrence?_eq_some_iff (by decide)).2
    ⟨⟨?_, fun i hi => ?_⟩, fun place hplace => ?_⟩
  · simp only [hfive, List.size_toArray, List.length_append, List.length_replicate]
    omega
  · rw [hbyte i hi, List.getElem?_toArray, List.getElem?_append_right (Nat.le_add_right _ _),
      Nat.add_sub_cancel_left, List.getElem?_replicate, if_pos (by omega)]
  · by_contra hlow
    have hsplit : front ++ List.replicate n 0xFF =
        (front ++ [0xFF]) ++ List.replicate (n - 1) (0xFF : UInt8) := by
      obtain ⟨m, rfl⟩ : ∃ m, n = m + 1 := ⟨n - 1, by omega⟩
      rw [List.replicate_succ, Nat.add_sub_cancel, List.append_assoc, List.singleton_append]
    have hshown : ∀ i < 2, (front ++ [0xFF])[place + i]? = some 0xFF := by
      intro i hi
      have hthere := hplace.2 i (by omega)
      have hinside : place + i < (front ++ [(0xFF : UInt8)]).length := by
        rw [List.length_append, List.length_singleton]
        omega
      rwa [hbyte i (by omega), List.getElem?_toArray, hsplit,
        List.getElem?_append_left hinside] at hthere
    obtain ⟨_, hfirst⟩ := List.getElem?_eq_some_iff.1 (hshown 0 (by decide))
    obtain ⟨hinside, hsecond⟩ := List.getElem?_eq_some_iff.1 (hshown 1 (by decide))
    exact List.isChain_iff_getElem.1 hfront place hinside ⟨hfirst, hsecond⟩

/-- Vectors, and a table of `0x7C` null entries. -/
def freshVectors : List UInt8 :=
  let zeros (n : Nat) : List UInt8 := List.replicate n 0
  zeros 8 ++ ([0x00, 0x40, 0xFC, 0xEA] ++ (zeros 0xC ++ ([0x30, 0x00, 0xF0, 0xFF] ++
    (zeros 0x10 ++ ([0x00, 0xB0, 0x9C, 0xE5] ++ zeros 0x1F3)))))

def freshSection : Bytes :=
  (freshVectors ++ List.replicate 0x5D 0xFF).toArray

/-- Both calls of a development build fit the filler behind an empty table. -/
theorem installations_serve_fresh :
    let kernel : Kernel := ⟨0, 0x30, 0x30⟩
    let image : KernelImage := ⟨freshSection, 0x224, 0x280⟩
    let stub : Info.Stub := ⟨.ofAscii "stubCTRB 12 bytes...", { commit := some "1a2b3c4d" }⟩
    let first := Backdoor.install kernel image
    let second := Info.install kernel stub ⟨0x01000000⟩ first.state
    Kernel.locate freshSection = .ok kernel ∧ Arena.locate freshSection kernel = .ok image.arena ∧
      freshSection.size ≤ 0x100000 ∧ TableApart kernel image.arena ∧
      first.result = .ok true ∧ second.result = .ok () ∧
      ∃ pos offset, Served kernel stub ⟨0x01000000⟩ freshSection second.state.code pos offset := by
  intro kernel image stub first second
  have hkernel : Kernel.locate freshSection = .ok kernel :=
    @Kernel.locate_of_found freshSection 0 0x30 0xEAFC4000 0xFFF00030 (by decide +kernel)
      (by decide +kernel) (by decide +kernel) (by decide +kernel)
  have hlength : freshVectors.length = 0x223 := by decide +kernel
  have hbytes : freshSection.size = 0x280 := by
    rw [freshSection, List.size_toArray, List.length_append, hlength, List.length_replicate]
  have harena : Arena.locate freshSection kernel = .ok image.arena := by
    have hfiller : freshSection.occurrence? Arena.filler = some 0x223 := by
      rw [freshSection, occurrence?_filler (by decide) (by decide +kernel), hlength]
    rw [Arena.locate_of_short rfl (by rw [hbytes]; decide) hfiller, hbytes]
  have hsize : image.code.size ≤ 0x100000 := by
    rw [hbytes]
    decide
  have hapart : TableApart kernel image.arena := by
    intro number hnumber i _ hstop
    change number ≤ 0x7B at hnumber
    change i < 0x30 + 4 * number + 4 at hstop
    change ¬(0x224 ≤ i ∧ i < 0x280)
    omega
  have hfree : image.code.word? (kernel.slot Backdoor.number) = some 0 := by decide +kernel
  have hmark : stub.code.occurrence? Info.magic = some 4 := by decide +kernel
  obtain ⟨hbackdoor, hinfo⟩ := @installs_of_room kernel image stub ⟨0x01000000⟩ 4
    (Nat.lt_of_le_of_lt hsize (by decide)) hfree hmark (by decide) (Nat.le_of_eq hbytes.symm)
    (by decide)
  obtain ⟨hserved, -⟩ := installations_serve hsize hapart stub ⟨0x01000000⟩
  exact ⟨hkernel, harena, hsize, hapart, hbackdoor, hinfo, (hserved true hbackdoor).1 hinfo⟩

end ServiceCall

open ServiceCall in
/-- Where no checks are lifted, all that can fail is for want of room. -/
theorem PatchSet.System.patchServiceCalls_of_room {kit : PatchKit} {kernel : Kernel}
    {image : KernelImage} {offset : Nat} (hoff : kit.config.isOn .liftAccess = false)
    (hlimit : image.code.size < positionLimit)
    (hfree : image.code.word? (kernel.slot Backdoor.number) = some 0)
    (hfound : kit.payloads.info.code.occurrence? Info.magic = some offset)
    (hblock : offset + Info.blockSize ≤ kit.payloads.info.code.size)
    (hstop : image.arena.stop ≤ image.code.size)
    (hroom : (image.arena.behind Backdoor.code.size).next + kit.payloads.info.code.size ≤
      image.arena.stop) : (patchServiceCalls kit kernel image).result = .ok () := by
  obtain ⟨hbackdoor, hinfo⟩ :=
    @installs_of_room kernel image _ kit.config offset hlimit hfree hfound hblock hstop hroom
  unfold patchServiceCalls
  rw [Run.result_bind_of_ok hbackdoor, Run.result_bind_of_ok hinfo, hoff]
  rfl

end BootStage
