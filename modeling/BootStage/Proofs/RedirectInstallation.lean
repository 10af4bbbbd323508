import BootStage.Proofs.AccessorDetours
/-!
# The installation of the NAND redirection

The routine is copied and filled, both accessors of Process9 are made to call it, and the memory
regions are opened: six writes to one section, each searched for in what the ones before it have
left. Wherever they lie, nothing else changes; and where they do not meet, each stands in the end.
-/

namespace BootStage.Redirect

variable {address : UInt32} {start stop : Nat} {routine filled : Bytes} {location : ImageLocation}
  {controller : UInt32} {arm9 code : Bytes}

/-! ## The routine -/

/-- `filled` is the bytes `before` with a value over the lowest tag of the placeholder. -/
def FilledWith (placeholder : Placeholder) (value : UInt32) (before filled : Bytes) : Prop :=
  ∃ pos, IsLeast {place | OccursAt before placeholder.tag place} pos ∧
    filled = before.overwrite pos (.ofWord value)

theorem FilledWith.size_eq {placeholder : Placeholder} {value : UInt32} {before filled : Bytes}
    (h : FilledWith placeholder value before filled) : filled.size = before.size := by
  obtain ⟨pos, -, rfl⟩ := h
  exact Bytes.size_overwrite _ _ _

theorem FilledWith.unique {placeholder : Placeholder} {value : UInt32}
    {before filled filled' : Bytes} (h : FilledWith placeholder value before filled)
    (h' : FilledWith placeholder value before filled') : filled' = filled := by
  obtain ⟨pos, hleast, rfl⟩ := h
  obtain ⟨pos', hleast', rfl⟩ := h'
  rw [hleast'.unique hleast]

/-- The placeholders are filled one after the other, each where it is found in what is there by
then. -/
def Filled (location : ImageLocation) (controller : UInt32) (routine filled : Bytes) : Prop :=
  ∃ first second, FilledWith .redirect location.redirect routine first ∧
    FilledWith .header location.header first second ∧
    FilledWith .controller controller second filled

theorem Filled.size_eq (h : Filled location controller routine filled) :
    filled.size = routine.size := by
  obtain ⟨first, second, hfirst, hsecond, hlast⟩ := h
  rw [hlast.size_eq, hsecond.size_eq, hfirst.size_eq]

theorem Filled.unique {filled' : Bytes} (h : Filled location controller routine filled)
    (h' : Filled location controller routine filled') : filled' = filled := by
  obtain ⟨first, second, hfirst, hsecond, hlast⟩ := h
  obtain ⟨first', second', hfirst', hsecond', hlast'⟩ := h'
  obtain rfl := hfirst.unique hfirst'
  obtain rfl := hsecond.unique hsecond'
  exact hlast.unique hlast'

def fillAll (location : ImageLocation) (controller : UInt32) : Edit Unit := do
  fill .redirect location.redirect
  fill .header location.header
  fill .controller controller

theorem size_tag (placeholder : Placeholder) : placeholder.tag.size = 4 := by
  cases placeholder <;> rfl

theorem fill_eq_ok {placeholder : Placeholder} {value : UInt32}
    (h : (fill placeholder value code).result = .ok ()) :
    FilledWith placeholder value code (fill placeholder value code).state :=
  Edit.fill_eq_ok (by rw [size_tag]; decide) h

theorem fillAll_eq_ok (h : (fillAll location controller routine).result = .ok ()) :
    Filled location controller routine (fillAll location controller routine).state := by
  unfold fillAll at h ⊢
  obtain ⟨⟨⟩, hredirect, h, hstate⟩ := Run.state_of_bind_ok h
  rw [hstate]
  obtain ⟨⟨⟩, hheader, hcontroller, hstate⟩ := Run.state_of_bind_ok h
  rw [hstate]
  exact ⟨_, _, fill_eq_ok hredirect, fill_eq_ok hheader, fill_eq_ok hcontroller⟩

theorem fill_of_filledWith {placeholder : Placeholder} {value : UInt32} {before filled : Bytes}
    (h : FilledWith placeholder value before filled) (hlimit : before.size < positionLimit) :
    fill placeholder value before = ⟨.ok (), filled, []⟩ := by
  obtain ⟨pos, hleast, rfl⟩ := h
  have htag := size_tag placeholder
  have hfits := hleast.1.1
  have hfound := (Bytes.occurrence?_eq_some_iff (by omega)).2 hleast
  unfold fill
  rw [Run.bind_of_eq_ok (Edit.locate_of_some hfound)]
  exact Edit.write_of_fits (by rw [Bytes.size_ofWord]; omega) hlimit

theorem fillAll_of_filled (h : Filled location controller routine filled)
    (hlimit : routine.size < positionLimit) :
    fillAll location controller routine = ⟨.ok (), filled, []⟩ := by
  obtain ⟨first, second, hfirst, hsecond, hlast⟩ := h
  have hfirstLimit := hfirst.size_eq ▸ hlimit
  have hsecondLimit := hsecond.size_eq ▸ hfirstLimit
  unfold fillAll
  rw [Run.bind_of_eq_ok (fill_of_filledWith hfirst hlimit),
    Run.bind_of_eq_ok (fill_of_filledWith hsecond hfirstLimit),
    fill_of_filledWith hlast hsecondLimit]

theorem confined_fillAll (n : Nat) : Edit.Confined n (fillAll location controller) fun _ => True :=
  (confined_fill _ _).bind fun _ _ => (confined_fill _ _).bind fun _ _ => confined_fill _ _

/-! ## The calls in Process9 -/

theorem overwrite_accessorWrites {target : UInt32} {read write : Nat}
    (h : AccessorsAt (code.extract start stop) read write) :
    code.overwrite start
        (Bytes.layAll (code.extract start stop) (accessorWrites target read write)) =
      code.layAll (accessorWrites target (start + read) (start + write)) := by
  obtain ⟨hnext, hfits⟩ := h.fits
  have hinside : ∀ write' ∈ accessorWrites target read write,
      write'.pos + write'.data.size ≤ (code.extract start stop).size := by
    rw [accessorWrites, List.forall_mem_cons, List.forall_mem_singleton, size_stub]
    dsimp only
    exact ⟨by omega, by omega⟩
  rw [Bytes.overwrite_layAll hinside, Bytes.overwrite_extract]
  rfl

theorem within_detourAccessors_eq_ok {target : UInt32}
    (h : (Edit.within start stop (detourAccessors target) code).result = .ok ()) :
    ∃ read write, start ≤ stop ∧ stop ≤ code.size ∧
      AccessorsAt (code.extract start stop) read write ∧
        (Edit.within start stop (detourAccessors target) code).state =
          code.layAll (accessorWrites target (start + read) (start + write)) := by
  obtain ⟨hrange, hstop, hdetoured, hstate⟩ := Edit.within_eq_ok h
  obtain ⟨read, write, haccessors, hlaid⟩ := detourAccessors_eq_ok hdetoured
  refine ⟨read, write, hrange, hstop, haccessors, ?_⟩
  rw [hstate, hlaid, overwrite_accessorWrites haccessors]

theorem within_detourAccessors_of_sites {target : UInt32} {read write : Nat}
    (hrange : start ≤ stop) (hstop : stop ≤ code.size) (hlimit : code.size < positionLimit)
    (h : AccessorsAt (code.extract start stop) read write) :
    Edit.within start stop (detourAccessors target) code =
      ⟨.ok (), code.layAll (accessorWrites target (start + read) (start + write)), []⟩ := by
  have hpart : (code.extract start stop).size < positionLimit := by
    rw [Array.size_extract]
    omega
  rw [Edit.within_of_ok hrange hstop (detourAccessors_of_sites h hpart),
    overwrite_accessorWrites h]

/-! ## The memory regions -/

def regionWrites (table : Nat) : List Write :=
  [⟨table, .ofWord 0x00360003⟩, ⟨table + 24, .ofWord 0x00200603⟩,
    ⟨table + 36, .ofWord 0x001C0603⟩]

theorem openRegions_eq_ok (h : (openRegions code).result = .ok ()) :
    ∃ table, IsLeast {place | OccursAt code regionPattern place} table ∧ table + 40 ≤ code.size ∧
      (openRegions code).state = code.layAll (regionWrites table) := by
  unfold openRegions at h ⊢
  obtain ⟨table, hlocated, h, hstate⟩ := Run.state_of_bind_ok h
  obtain ⟨hfound, hkept⟩ := Edit.locate_eq_ok hlocated
  rw [hstate]
  rw [hkept] at h ⊢
  obtain ⟨⟨⟩, hfirst, h, hstate⟩ := Run.state_of_bind_ok h
  rw [hstate]
  rw [Edit.writeWord_eq_ok hfirst] at h ⊢
  obtain ⟨⟨⟩, hsecond, hthird, hstate⟩ := Run.state_of_bind_ok h
  rw [hstate]
  rw [Edit.writeWord_eq_ok hsecond, ← Bytes.layAll_append] at hthird ⊢
  have hfits := Edit.fits_of_write hthird
  rw [Edit.writeWord_eq_ok hthird, ← Bytes.layAll_append]
  rw [Bytes.size_layAll] at hfits
  exact ⟨table, (Bytes.occurrence?_eq_some_iff (by decide)).1 hfound, hfits, rfl⟩

theorem openRegions_of_found {table : Nat}
    (h : IsLeast {place | OccursAt code regionPattern place} table)
    (hfits : table + 40 ≤ code.size) (hlimit : code.size < positionLimit) :
    openRegions code = ⟨.ok (), code.layAll (regionWrites table), []⟩ := by
  have hfound := (Bytes.occurrence?_eq_some_iff (by decide)).2 h
  unfold openRegions Edit.writeWord
  rw [Run.bind_of_eq_ok (Edit.locate_of_some hfound), Edit.write_bind_of_fits,
    Edit.write_bind_of_fits, Edit.write_of_fits, regionWrites, Bytes.layAll_mk_cons,
    Bytes.layAll_pair]
  all_goals simp [hlimit]
  all_goals omega

/-! ## The writes of an installation -/

/-- Where an installation writes, and the routine it writes. -/
structure Installation where
  /-- Position of the padding in front of the cavity. -/
  padding : Nat
  filled : Bytes
  /-- Positions of the two calls in Process9. -/
  read : Nat
  write : Nat
  table : Nat
  deriving DecidableEq, Repr

namespace Installation

def cavity (inst : Installation) : Nat :=
  inst.padding + 0x455

def placed (inst : Installation) (address : UInt32) : UInt32 :=
  address + UInt32.ofNat inst.cavity

/-- The routine, and the calls in Process9, which starts at `start`. -/
def codeWrites (inst : Installation) (address : UInt32) (start : Nat) : List Write :=
  ⟨inst.cavity, inst.filled⟩ ::
    accessorWrites (inst.placed address) (start + inst.read) (start + inst.write)

def writes (inst : Installation) (address : UInt32) (start : Nat) : List Write :=
  inst.codeWrites address start ++ regionWrites inst.table

/-- `inst` is where the section `arm9` has what is searched for, and all of it fits there. -/
structure Suits (inst : Installation) (address : UInt32) (start stop : Nat) (routine : Bytes)
    (location : ImageLocation) (controller : UInt32) (arm9 : Bytes) : Prop where
  padding : IsLeast {place | 0x13500 ≤ place ∧ OccursAt arm9 paddingPattern place} inst.padding
  filled : Filled location controller routine inst.filled
  routineFits : inst.cavity + routine.size ≤ arm9.size
  range : start ≤ stop ∧ stop ≤ arm9.size
  /-- The calls are those of Process9 with the routine in its place. -/
  accessors : AccessorsAt ((arm9.overwrite inst.cavity inst.filled).extract start stop)
    inst.read inst.write
  /-- The table is that of the section with the routine and the calls in their places. -/
  table : IsLeast {place | OccursAt (arm9.layAll (inst.codeWrites address start)) regionPattern
    place} inst.table
  tableFits : inst.table + 40 ≤ arm9.size

/-- There is at most one way to install the redirection. -/
theorem Suits.unique {inst inst' : Installation}
    (h : inst.Suits address start stop routine location controller arm9)
    (h' : inst'.Suits address start stop routine location controller arm9) : inst' = inst := by
  obtain ⟨padding, filled, read, write, table⟩ := inst
  obtain ⟨padding', filled', read', write', table'⟩ := inst'
  obtain rfl : padding' = padding := h'.padding.unique h.padding
  obtain rfl : filled' = filled := h.filled.unique h'.filled
  obtain ⟨hread, hwrite⟩ := h.accessors.unique h'.accessors
  dsimp only at hread hwrite
  subst hread hwrite
  obtain rfl : table' = table := h'.table.unique h.table
  rfl

end Installation

theorem install_eq_ok
    (h : (install address start stop routine location controller arm9).result = .ok ()) :
    ∃ inst : Installation, inst.Suits address start stop routine location controller arm9 ∧
      (install address start stop routine location controller arm9).state =
        arm9.layAll (inst.writes address start) := by
  unfold install at h ⊢
  rw [Run.bind_of_eq_ok (m := get) rfl] at h ⊢
  obtain ⟨padding, hpadding, h, hstate⟩ := Run.state_of_bind_ok h
  rw [hstate]
  rw [Run.state_orFail] at h ⊢
  have hleast := (Bytes.occurrenceFrom?_eq_some_iff (by decide)).1 (Run.orFail_eq_ok hpadding)
  obtain ⟨⟨⟩, hcopied, h, hstate⟩ := Run.state_of_bind_ok h
  have hroutine := Edit.fits_of_write hcopied
  rw [hstate]
  rw [Edit.write_eq_ok hcopied] at h ⊢
  obtain ⟨⟨⟩, hfilling, h, hstate⟩ := Run.state_of_bind_ok h
  rw [hstate]
  change (Edit.within _ _ (fillAll location controller) _).result = _ at hfilling
  obtain ⟨hfilled, hlaid⟩ := Edit.within_laid_eq_ok hroutine (confined_fillAll _) hfilling
  have hfilled := fillAll_eq_ok hfilled
  generalize (fillAll location controller routine).state = filled at hfilled hlaid
  unfold fillAll at hlaid
  rw [hlaid] at h ⊢
  obtain ⟨⟨⟩, hcalling, h, hstate⟩ := Run.state_of_bind_ok h
  rw [hstate]
  obtain ⟨read, write, hstart, hstop, haccessors, hlaid⟩ := within_detourAccessors_eq_ok hcalling
  rw [hlaid] at h ⊢
  obtain ⟨⟨⟩, hopened, -, hstate⟩ := Run.state_of_bind_ok h
  obtain ⟨table, htable, htableFits, hlaid⟩ := openRegions_eq_ok hopened
  rw [hstate, Run.state_emit, hlaid]
  rw [Bytes.size_overwrite] at hstop
  rw [Bytes.size_layAll, Bytes.size_overwrite] at htableFits
  rw [← Bytes.layAll_mk_cons] at htable ⊢
  rw [← Bytes.layAll_append]
  refine ⟨⟨padding, filled, read, write, table⟩, ?_, rfl⟩
  exact ⟨hleast, hfilled, hroutine, ⟨hstart, hstop⟩, haccessors, htable, htableFits⟩

/-- Where all is found, nothing can fail. -/
theorem install_of_suits {inst : Installation}
    (h : inst.Suits address start stop routine location controller arm9)
    (hlimit : arm9.size < positionLimit) :
    (install address start stop routine location controller arm9).result = .ok () := by
  have hfits := h.routineFits
  have hpadding : arm9.occurrenceFrom? paddingPattern earliestPadding = some inst.padding :=
    (Bytes.occurrenceFrom?_eq_some_iff (by decide)).2 h.padding
  have hcopying : Edit.write "EmuNAND routine" inst.cavity routine arm9 =
      ⟨.ok (), arm9.overwrite inst.cavity routine, []⟩ := Edit.write_of_fits hfits hlimit
  have hfilled : fillAll location controller routine = ⟨.ok (), inst.filled, []⟩ :=
    fillAll_of_filled h.filled (by omega)
  have hfilling := Edit.within_laid_of_ok hfits h.filled.size_eq hfilled
  have hsize := Bytes.size_overwrite arm9 inst.cavity inst.filled
  have hcalling := @within_detourAccessors_of_sites start stop
    (arm9.overwrite inst.cavity inst.filled) (inst.placed address) inst.read inst.write h.range.1
    (hsize.symm ▸ h.range.2) (hsize.symm ▸ hlimit) h.accessors
  have htable := h.table
  rw [Installation.codeWrites, Bytes.layAll_mk_cons] at htable
  have hopening := openRegions_of_found htable (by simpa using h.tableFits) (by simpa using hlimit)
  have hcavity : inst.padding + paddingToCavity = inst.cavity := rfl
  have hplaced : address + UInt32.ofNat inst.cavity = inst.placed address := rfl
  unfold fillAll at hfilling
  unfold install
  rw [Run.bind_of_eq_ok (m := get) rfl, hpadding,
    Run.bind_of_eq_ok (m := Run.orFail (some inst.padding) _) rfl]
  dsimp only
  rw [hcavity, hplaced, Run.bind_of_eq_ok hcopying, Run.bind_of_eq_ok hfilling,
    Run.bind_of_eq_ok hcalling, Run.bind_of_eq_ok hopening]
  rfl

/-! ## What is there in the end -/

namespace Installation

/-- The section `after` has the routine, two calls to it, and open memory regions. -/
structure Serves (inst : Installation) (address : UInt32) (start : Nat) (after : Bytes) :
    Prop where
  routine : OccursAt after inst.filled inst.cavity
  first : OccursAt after (stub (inst.placed address)) (start + inst.read)
  second : OccursAt after (stub (inst.placed address)) (start + inst.write)
  regions : after.word inst.table = 0x00360003 ∧ after.word (inst.table + 24) = 0x00200603 ∧
    after.word (inst.table + 36) = 0x001C0603

theorem Suits.serves {inst : Installation}
    (h : inst.Suits address start stop routine location controller arm9)
    (hdisjoint : (inst.writes address start).Pairwise Write.Disjoint) :
    inst.Serves address start (arm9.layAll (inst.writes address start)) := by
  have hroutine := h.routineFits
  have hrange := h.range
  obtain ⟨hnext, hcalls⟩ := h.accessors.fits
  rw [Array.size_extract, Bytes.size_overwrite] at hcalls
  have htable := h.tableFits
  have hstands : ∀ pos data, ⟨pos, data⟩ ∈ inst.writes address start →
      pos + data.size ≤ arm9.size →
        OccursAt (arm9.layAll (inst.writes address start)) data pos :=
    fun pos data => Bytes.occursAt_layAll_of_disjoint hdisjoint
  have hword : ∀ pos value, ⟨pos, .ofWord value⟩ ∈ inst.writes address start →
      pos + 4 ≤ arm9.size → (arm9.layAll (inst.writes address start)).word pos = value :=
    fun pos value hmem hfits => Bytes.word_of_occursAt (hstands pos _ hmem hfits)
  constructor
  case routine =>
    refine hstands _ _ (by simp [writes, codeWrites]) ?_
    rw [h.filled.size_eq]
    exact hroutine
  case first =>
    refine hstands _ _ (by simp [writes, codeWrites, accessorWrites]) ?_
    rw [size_stub]
    omega
  case second =>
    refine hstands _ _ (by simp [writes, codeWrites, accessorWrites]) ?_
    rw [size_stub]
    omega
  case regions =>
    refine ⟨hword _ _ ?_ (by omega), hword _ _ ?_ (by omega), hword _ _ ?_ (by omega)⟩
    all_goals simp [writes, regionWrites]

end Installation

/-- Where the redirection is installed, everything it needs was found, and nothing changes outside
the routine, the two calls and the three words of the region table; if no two of these share a byte,
all of them are there in the end. -/
theorem install_serves
    (h : (install address start stop routine location controller arm9).result = .ok ()) :
    ∃ inst : Installation, inst.Suits address start stop routine location controller arm9 ∧
      inst.filled.size = routine.size ∧
      (install address start stop routine location controller arm9).state.size = arm9.size ∧
      (∀ i, (∀ write ∈ inst.writes address start, ¬write.Covers i) →
        (install address start stop routine location controller arm9).state[i]? = arm9[i]?) ∧
      ((inst.writes address start).Pairwise Write.Disjoint → inst.Serves address start
        (install address start stop routine location controller arm9).state) := by
  obtain ⟨inst, hsuits, hlaid⟩ := install_eq_ok h
  rw [hlaid]
  exact ⟨inst, hsuits, hsuits.filled.size_eq, Bytes.size_layAll _ _,
    fun _ hclear => Bytes.getElem?_layAll_of_clear hclear, hsuits.serves⟩

end BootStage.Redirect

/-! ## A section with just what is searched for

The region table is at its start, and Process9 behind the padding in front of the cavity, which the
routine fills. -/

namespace BootStage.BareSection

open Redirect

def routine : Bytes :=
  Placeholder.tag .redirect ++ Placeholder.tag .header ++ Placeholder.tag .controller

def address : UInt32 := 0x08006800

def location : ImageLocation := ⟨0, 1, 1⟩

def controller : UInt32 := 0x08030120

/-- The two calls lie right behind each other. -/
def process9 : Bytes :=
  Array.replicate 6 0 ++ accessorPattern ++ Array.replicate 4 0 ++ accessorPattern

/-- The region table and the padding pattern, with a gap between them. -/
def front (gap : Bytes) : Bytes :=
  regionPattern ++ gap ++ paddingPattern

def arm9 (gap : Bytes) : Bytes :=
  front gap ++ process9 ++ Array.replicate 0x449 0

def filler : Bytes :=
  Array.replicate 0x134FC 0

def inst : Installation where
  padding := 0x13500
  filled := Bytes.ofWord 1 ++ Bytes.ofWord 1 ++ Bytes.ofWord controller
  read := 0
  write := 8
  table := 0

variable {gap : Bytes}

theorem size_front (hgap : gap.size = 0x134FC) : (front gap).size = 0x13506 := by
  rw [front, Array.size_append, Array.size_append, hgap]
  rfl

theorem size_arm9 (hgap : gap.size = 0x134FC) : (arm9 gap).size = 0x13961 := by
  rw [arm9, Array.size_append, Array.size_append, size_front hgap, Array.size_replicate]
  rfl

theorem filled_inst : Filled location controller routine inst.filled := by
  have hlowest : ∀ {placeholder : Placeholder} {code : Bytes} {pos : Nat},
      code.occurrence? placeholder.tag = some pos →
        IsLeast {place | OccursAt code placeholder.tag place} pos :=
    fun {placeholder} => (Bytes.occurrence?_eq_some_iff (by rw [size_tag]; decide)).1
  exact ⟨_, _, ⟨0, hlowest (by decide +kernel), rfl⟩, ⟨4, hlowest (by decide +kernel), rfl⟩,
    ⟨8, hlowest (by decide +kernel), by decide +kernel⟩⟩

theorem extract_process9 (hgap : gap.size = 0x134FC) :
    ((arm9 gap).overwrite inst.cavity inst.filled).extract 0x13506 0x13518 = process9 := by
  have hbefore : ((arm9 gap).overwrite inst.cavity inst.filled).window 0x13506 18 =
      (arm9 gap).window 0x13506 18 := by
    refine Bytes.window_congr fun i hstart hstop => ?_
    have hcavity : inst.cavity = 0x13955 := rfl
    rw [Bytes.getElem?_overwrite, if_neg (by omega)]
  exact hbefore.trans (Bytes.extract_between (size_front hgap) rfl _)

theorem suits_inst (hgap : gap.size = 0x134FC) :
    inst.Suits address 0x13506 0x13518 routine location controller (arm9 gap) := by
  have hsize := size_arm9 hgap
  have hpadding : OccursAt (arm9 gap) paddingPattern 0x13500 := by
    have hself : OccursAt paddingPattern paddingPattern 0 := by decide
    have hfront := hself.append (regionPattern ++ gap)
    rw [Array.size_append, hgap] at hfront
    exact (hfront.append_right process9).append_right _
  have htable : OccursAt (arm9 gap) regionPattern 0 := by
    have hself : OccursAt regionPattern regionPattern 0 := by decide
    exact (((hself.append_right gap).append_right _).append_right process9).append_right _
  constructor
  case padding => exact ⟨⟨Nat.le_refl _, hpadding⟩, fun place hplace => hplace.1⟩
  case filled => exact filled_inst
  case routineFits =>
    rw [hsize]
    decide
  case range =>
    rw [hsize]
    decide
  case accessors =>
    rw [extract_process9 hgap]
    exact accessorSites?_eq_some_iff.1 (by decide +kernel)
  case table =>
    have hapart : ∀ write ∈ inst.codeWrites address 0x13506, write.Apart 0 4 := by decide +kernel
    exact ⟨htable.layAll hapart, fun place _ => Nat.zero_le place⟩
  case tableFits =>
    rw [hsize]
    decide

theorem disjoint_writes : (inst.writes address 0x13506).Pairwise Write.Disjoint := by
  have hapart : (inst.writes address 0x13506).Pairwise fun write other =>
      write.Apart other.pos other.data.size := by decide +kernel
  exact hapart.imp Write.disjoint_of_apart

/-- The two calls join, and no write meets another. -/
theorem install_serves_bare :
    (install address 0x13506 0x13518 routine location controller
        (arm9 filler)).result = .ok () ∧
      inst.Serves address 0x13506
        (install address 0x13506 0x13518 routine location controller
          (arm9 filler)).state := by
  have hgap : filler.size = 0x134FC := Array.size_replicate
  have hsuits := suits_inst hgap
  have hlimit : (arm9 filler).size < positionLimit := by
    rw [size_arm9 hgap]
    decide
  have hinstalled := install_of_suits hsuits hlimit
  obtain ⟨found, hfound, -, -, -, hserves⟩ := install_serves hinstalled
  obtain rfl := hsuits.unique hfound
  exact ⟨hinstalled, hserves disjoint_writes⟩

end BootStage.BareSection
