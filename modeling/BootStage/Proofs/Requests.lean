import BootStage.Proofs.HandedOver
/-!
# Requests to the second core

All requests share one parameter block, next to the cell that triggers them. A request finds the
words posted with it, and behind them those that longer requests left there. Every posting is
logged once, and leaves the second core ready for the next.
-/

namespace BootStage

namespace Cell

def parameter (i : Nat) : UInt32 :=
  Cell.parameters + UInt32.ofNat (4 * i)

/-- Number of parameters in front of the cell of operations. -/
def parameterLimit : Nat := 1020

theorem toNat_parameter {i : Nat} (h : i < parameterLimit) :
    (parameter i).toNat = 0x1FFFF000 + 4 * i := by
  have hblock : parameters.toNat = 0x1FFFF000 := rfl
  unfold parameterLimit at h
  rw [parameter, UInt32.toNat_add, UInt32.toNat_ofNat']
  omega

def Apart (cell other : UInt32) : Prop :=
  ∀ a, Spans other a → ¬Spans cell a

theorem apart_of_le {cell other : UInt32} (h : cell.toNat + 4 ≤ other.toNat)
    (htop : other.toNat + 4 ≤ 0x100000000) : Apart cell other ∧ Apart other cell := by
  constructor <;>
  · intro a ha
    rw [spans_iff (by omega)] at ha ⊢
    omega

theorem parameters_apart {i j : Nat} (hi : i < parameterLimit) (hj : j < parameterLimit)
    (h : i ≠ j) : Apart (parameter i) (parameter j) := by
  have hti := toNat_parameter hi
  have htj := toNat_parameter hj
  unfold parameterLimit at hi hj
  rcases Nat.lt_or_gt_of_ne h with hlt | hgt
  · exact (apart_of_le (by omega) (by omega)).1
  · exact (apart_of_le (by omega) (by omega)).2

theorem parameter_apart_operation {i : Nat} (h : i < parameterLimit) :
    Apart (parameter i) operation ∧ Apart operation (parameter i) := by
  have hoperation : operation.toNat = 0x1FFFFFF0 := rfl
  have hplace := toNat_parameter h
  unfold parameterLimit at h
  exact apart_of_le (by omega) (by omega)

theorem parameter_ne_operation {i : Nat} (h : i < parameterLimit) : parameter i ≠ operation := by
  intro heq
  have hoperation : operation.toNat = 0x1FFFFFF0 := rfl
  have hplace := toNat_parameter h
  unfold parameterLimit at h
  rw [heq] at hplace
  omega

end Cell

theorem Memory.word_setWord_apart {cell other : UInt32} (h : Cell.Apart cell other)
    (memory : Memory) (value : UInt32) :
    (memory.setWord cell value).word other = memory.word other :=
  word_congr fun a ha => by rw [byte_setWord, if_neg (h a ha)]

structure Posting where
  operation : Operation
  words : List UInt32
  deriving DecidableEq, Repr

namespace Posting

/-- It asks for something, and its parameters end below the cell of operations. -/
structure Fits (posting : Posting) : Prop where
  asks : posting.operation ≠ .ready
  below : posting.words.length ≤ Cell.parameterLimit

/-- Parameter `i` after some postings, where it was `initial` before them: it comes from the
latest that has so many. -/
def latest (postings : List Posting) (i : Nat) (initial : UInt32) : UInt32 :=
  (postings.findSomeRev? (·.words[i]?)).getD initial

theorem latest_cons (posting : Posting) (rest : List Posting) (i : Nat) (initial : UInt32) :
    latest (posting :: rest) i initial = latest rest i (posting.words[i]?.getD initial) := by
  simp only [latest, List.findSomeRev?]
  cases rest.findSomeRev? (·.words[i]?) with
  | some word => rfl
  | none => rfl

end Posting

theorem Operation.code_ne_ready {operation : Operation} (h : operation ≠ .ready) :
    operation.code ≠ Operation.ready.code := by
  cases operation <;> first | decide | exact absurd rfl h

namespace Machine

variable {ε : Type} {m : Machine}

def found (m : Machine) (postings : List Posting) (operation : Operation) : Request where
  operation := operation.code
  parameters := Vector.ofFn fun i : Fin 4 =>
    Posting.latest postings i.val (m.word (Cell.parameter i.val))

/-- The machine `after` some postings were made on the machine `m`. -/
structure Served (m : Machine) (postings : List Posting) (after : Machine) : Prop where
  ready : after.isReady
  /-- Each posting is logged once, in order. -/
  requests : after.requests = m.requests ++
    postings.mapIdx fun k posting => m.found (postings.take (k + 1)) posting.operation
  parameters : ∀ i < Cell.parameterLimit,
    after.word (Cell.parameter i) = Posting.latest postings i (m.word (Cell.parameter i))
  flushes : after.flushes = m.flushes + 2 * postings.length

/-! ## One posting -/

theorem foldl_parameters (words : List UInt32) (start : Nat) (m : Machine)
    (h : start + words.length ≤ Cell.parameterLimit) :
    ∃ memory, (words.zipIdx start).foldl
        (fun m (value, i) => m.setWord (Cell.parameters + UInt32.ofNat (4 * i)) value) m =
          { m with memory } ∧
      memory.word Cell.operation = m.word Cell.operation ∧
      ∀ i < Cell.parameterLimit, memory.word (Cell.parameter i) =
        if start ≤ i then words[i - start]?.getD (m.word (Cell.parameter i))
        else m.word (Cell.parameter i) := by
  induction words generalizing start m with
  | nil => exact ⟨m.memory, rfl, rfl, fun i _ => by simp [word]⟩
  | cons value rest ih =>
    rw [List.length_cons] at h
    have hstart : start < Cell.parameterLimit := by omega
    have hstored : m.setWord (Cell.parameter start) value =
        { m with memory := m.memory.setWord (Cell.parameter start) value } :=
      setWord_of_quiet (fun hposts => Cell.parameter_ne_operation hstart hposts.1) m
    obtain ⟨memory, hmemory, hoperation, hwords⟩ :=
      ih (start + 1) (m.setWord (Cell.parameter start) value) (by omega)
    rw [hstored] at hmemory hoperation hwords
    refine ⟨memory, ?_, ?_, fun i hi => ?_⟩
    · rw [List.zipIdx_cons, List.foldl_cons]
      show (rest.zipIdx (start + 1)).foldl _ (m.setWord (Cell.parameter start) value) = _
      rw [hstored]
      exact hmemory
    · rw [hoperation]
      exact Memory.word_setWord_apart (Cell.parameter_apart_operation hstart).1 _ _
    · rw [hwords i hi]
      dsimp only [word]
      by_cases hsame : i = start
      · subst hsame
        rw [if_neg (by omega), if_pos (Nat.le_refl i), Memory.word_setWord]
        simp
      · rw [Memory.word_setWord_apart (Cell.parameters_apart hstart hi (Ne.symm hsame))]
        by_cases hafter : start + 1 ≤ i
        · have hshift : i - start = i - (start + 1) + 1 := by omega
          rw [if_pos hafter, if_pos (by omega), hshift, List.getElem?_cons_succ]
        · rw [if_neg hafter, if_neg (by omega)]

/-- A posting on a machine whose second core is ready returns, and is served. -/
theorem post_serves (h : m.isReady) {posting : Posting} (hfits : posting.Fits) :
    ((post posting.operation posting.words : Run Notice ε Machine Unit) m).result = .ok () ∧
      Served m [posting]
        ((post posting.operation posting.words : Run Notice ε Machine Unit) m).state := by
  obtain ⟨stored, hstored, -, hwords⟩ :=
    foldl_parameters posting.words 0 m (by rw [Nat.zero_add]; exact hfits.below)
  let filled : Machine := ({ m with memory := stored } : Machine).flush
  have hpost : Run.Yields (· = m)
      (· = (filled.setWord Cell.operation posting.operation.code).flush)
      (post posting.operation posting.words : Run Notice ε Machine Unit) () := by
    refine (HandOver.yields_awaitReady h).bind ?_
    refine (Run.Yields.modify (J := (· = filled)) fun s hs => ?_).bind ?_
    · rw [hs]
      exact congrArg flush hstored
    · exact Run.Yields.emit.bind (.modify fun _ hs => hs ▸ rfl)
  obtain ⟨hok, hstate⟩ := hpost m rfl
  -- Storing the operation and then the core's answer leaves the parameters alone.
  have hkept : ∀ i < Cell.parameterLimit,
      (stored.setWord Cell.operation posting.operation.code).word (Cell.parameter i) =
        Posting.latest [posting] i (m.word (Cell.parameter i)) := by
    intro i hi
    rw [Memory.word_setWord_apart (Cell.parameter_apart_operation hi).2, hwords i hi,
      if_pos (Nat.zero_le i)]
    rfl
  refine ⟨hok, ?_⟩
  rw [hstate, setWord_operation (Operation.code_ne_ready hfits.asks)]
  constructor
  case ready => exact isReady_iff.2 (Memory.word_setWord _ _ _)
  case requests =>
    have hpending : pending (stored.setWord Cell.operation posting.operation.code)
        posting.operation.code = m.found [posting] posting.operation := by
      have hblock : ∀ i : Fin 4, i.val < Cell.parameterLimit := by decide
      simp only [pending, found, ← hkept _ (hblock _)]
      rfl
    show m.requests ++ [pending (stored.setWord _ _) _] = _
    rw [hpending]
    rfl
  case parameters =>
    intro i hi
    show ((stored.setWord _ _).setWord _ _).word _ = _
    rw [Memory.word_setWord_apart (Cell.parameter_apart_operation hi).2, hkept i hi]
  case flushes => rfl

/-! ## A sequence of postings -/

/-- What one posting serves, those after it go on from. -/
theorem Served.cons {posting : Posting} {rest : List Posting} {next after : Machine}
    (hfirst : Served m [posting] next) (hrest : Served next rest after) :
    Served m (posting :: rest) after := by
  have hlatest : ∀ postings, ∀ i < Cell.parameterLimit,
      Posting.latest postings i (next.word (Cell.parameter i)) =
        Posting.latest (posting :: postings) i (m.word (Cell.parameter i)) := by
    intro postings i hi
    rw [hfirst.parameters i hi, Posting.latest_cons, Posting.latest_cons]
    rfl
  have hfound : ∀ postings operation,
      next.found postings operation = m.found (posting :: postings) operation := by
    intro postings operation
    have hblock : ∀ i : Fin 4, i.val < Cell.parameterLimit := by decide
    simp only [found, hlatest _ _ (hblock _)]
  constructor
  case ready => exact hrest.ready
  case requests =>
    rw [hrest.requests, hfirst.requests, List.append_assoc]
    simp only [hfound, List.mapIdx_cons, List.mapIdx_nil, List.take_succ_cons, List.cons_append,
      List.nil_append, List.take_zero]
  case parameters => exact fun i hi => (hrest.parameters i hi).trans (hlatest rest i hi)
  case flushes =>
    rw [hrest.flushes, hfirst.flushes]
    simp only [List.length_cons, List.length_nil]
    omega

def postAll (postings : List Posting) : Run Notice ε Machine Unit :=
  postings.forM fun posting => post posting.operation posting.words

theorem postAll_serves {postings : List Posting} (h : m.isReady)
    (hfits : ∀ posting ∈ postings, posting.Fits) :
    ((postAll postings : Run Notice ε Machine Unit) m).result = .ok () ∧
      Served m postings ((postAll postings : Run Notice ε Machine Unit) m).state := by
  -- Each posting leaves the core ready for those after it, on a machine that varies.
  induction postings generalizing m with
  | nil => exact ⟨rfl, h, (List.append_nil _).symm, fun _ _ => rfl, rfl⟩
  | cons posting rest ih =>
    obtain ⟨hok, hserved⟩ := post_serves (ε := ε) h (hfits posting List.mem_cons_self)
    obtain ⟨hlast, hrest⟩ := ih hserved.ready fun p hp => hfits p (List.mem_cons_of_mem posting hp)
    have hrun : (postAll (posting :: rest) : Run Notice ε Machine Unit) m = _ :=
      Run.bind_of_ok hok fun _ => postAll rest
    rw [hrun]
    exact ⟨hlast, hserved.cons hrest⟩

/-- On a machine whose second core is ready, any sequence of postings whose parameters end below
the cell of operations goes through, and after each of them all so far have been served: every one
is logged once, in order, with the parameters it was to find; the core is ready; and the caches
were flushed twice a posting. -/
theorem requests_served_in_order (hready : m.isReady) {postings : List Posting}
    (hfits : ∀ posting ∈ postings, posting.Fits) {before : List Posting}
    (hbefore : before <+: postings) :
    ((postAll before : Run Notice ε Machine Unit) m).result = .ok () ∧
      Served m before ((postAll before : Run Notice ε Machine Unit) m).state :=
  postAll_serves hready fun posting hmem => hfits posting (hbefore.subset hmem)

/-- Parameters up to the cell of operations, then two, then none: what is not posted anew stays. -/
theorem requests_served_in_order_stale :
    let postings : List Posting :=
      [⟨.layOutFrames, List.replicate 1020 7⟩, ⟨.setBrightness, [1, 2]⟩, ⟨.powerDownScreens, []⟩]
    Machine.idle.isReady ∧ (∀ posting ∈ postings, posting.Fits) ∧
      ((postAll postings : Run Notice BootFailure Machine Unit) .idle).state.requests =
        [⟨1, #v[7, 7, 7, 7]⟩, ⟨4, #v[1, 2, 7, 7]⟩, ⟨5, #v[1, 2, 7, 7]⟩] := by
  intro postings
  have hready : Machine.idle.isReady := by decide +kernel
  have hfits : ∀ posting ∈ postings, posting.Fits := by
    simp only [postings, List.forall_mem_cons]
    exact ⟨⟨by decide, Nat.le_of_eq List.length_replicate⟩, ⟨by decide, by decide⟩,
      ⟨by decide, by decide⟩, nofun⟩
  refine ⟨hready, hfits, ?_⟩
  rw [(requests_served_in_order hready hfits (List.prefix_refl postings)).2.requests]
  decide +kernel

end Machine
end BootStage
