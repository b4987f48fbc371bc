/-
Where the values of a simulated stack come from.

Every value on the stack carries the place of the instruction that left it. The arguments of a call
are told apart by these places, and a rewind is right only because the last statement start is a
place where nothing is left from before. `Provenance` says what holds of them in every state a
cursor can come to: the places do not fall towards the top, they are places of instructions that the
walk comes to, and all of them are before the current instruction, except for the exception that a
handler starts with. The same is said of the stacks that are kept for later places.

What is kept has to be traced to the instruction that left it (`LeftAt`). A move that ends at the
end of the code, or before bytes that are no instruction, has still run the last instruction, so the
tracing follows the runs (`snapshot?_of_run`) and not the arrivals.

A cursor that went back and forth has kept stacks from farther along than where it stands. They are
stacks of the walk all the same (`Drawn`), so everything is proved on the walk, by induction over
its moves, and carried over to the cursor at the end.
-/
import Mathlib.Data.Set.Basic
import Mathlib.Order.Bounds.Defs
import ManagedImage.Proofs.Code.Origins

set_option autoImplicit false

namespace ManagedImage

/-! ## The places of the values -/

/-- A handler starts with one exception, if it is a catch or a filter, and with nothing else. -/
theorem Simulation.exceptionSlots_cases (image : Option Image) (h : HandlerEntry) (place : Nat) :
    (∃ v, (h.kind = some .catch ∨ h.kind = some .filter) ∧ exceptionSlots image h place = [v])
      ∨ exceptionSlots image h place = [] := by
  unfold exceptionSlots
  split
  next hcatch => exact Or.inl ⟨_, Or.inl hcatch, rfl⟩
  next hfilter => exact Or.inl ⟨_, Or.inr hfilter, rfl⟩
  next => exact Or.inr rfl

namespace Route

variable {r : Route}

/-- The walk comes to an instruction at the place. -/
def Visits (r : Route) (p : Nat) : Prop := ∃ j, r.Landed j ∧ r.place j = p

theorem Landed.visits {k : Nat} (h : r.Landed k) : r.Visits (r.place k) := ⟨k, h, rfl⟩

/-- On the walk every value comes from an instruction that the walk has come to. -/
theorem Landed.sourced_visits {k : Nat} (h : r.Landed k) : (r.sim k).Sourced r.Visits :=
  h.sourced_of fun _ _ hj => hj.visits

/-- A catch or a filter starts at the place, with one exception on the stack. -/
def StartsWith (r : Route) (p : Nat) (v : Slot) : Prop :=
  ∃ h, r.handlers.at? p = some h ∧ (h.kind = some .catch ∨ h.kind = some .filter)
    ∧ Simulation.exceptionSlots r.image h p = [v]

/-- **Values come from before.** What an instruction finds on the stack was left before it, unless
it is the exception of a handler that starts there. -/
theorem Landed.before_or_exception {k : Nat} (h : r.Landed k) :
    (∀ v ∈ (r.sim k).slots, v.source < r.place k)
      ∨ ∃ v, (r.sim k).slots = [v] ∧ v.source = r.place k ∧ r.StartsWith (r.place k) v := by
  cases k with
  | zero => exact absurd h r.not_landed_zero
  | succ k =>
    obtain ⟨s, i, harr⟩ := h.arrival
    have hslots : (r.sim (k + 1)).slots = (s.entrySlots r.image r.handlers i.offset).1 := by
      rw [harr.sim]
      rfl
    rw [harr.place_eq, hslots]
    unfold Simulation.entrySlots
    cases hat : r.handlers.at? i.offset with
    | some entry =>
      dsimp only
      rcases Simulation.exceptionSlots_cases r.image entry i.offset with ⟨v, hkind, hv⟩ | hnil
      · have hsource : v.source = i.offset :=
          Simulation.exceptionSlots_source (by rw [hv]; exact List.mem_singleton_self v)
        exact Or.inr ⟨v, hv, hsource, entry, hat, hkind, hv⟩
      · left
        rw [hnil]
        intro v hv
        cases hv
    | none =>
      left
      dsimp only
      -- No handler starts here: the stack is the one that a jump left here, or the one from before.
      by_cases hdead : s.dead = true
      · rw [if_pos hdead]
        cases hq : s.snapshot? i.offset with
        | none =>
          intro v hv
          cases hv
        | some slots => exact harr.sourced.kept i.offset slots hq
      · rw [if_neg hdead]
        exact harr.sourced.slots

/-! ## The stacks that are kept -/

/-- The instruction of the walk at `j` jumps to the later place `x` and leaves the stack there. -/
structure LeftAt (r : Route) (j x : Nat) (slots : List Slot) : Prop where
  landed : r.Landed j
  before : r.place j < x
  jumps : (x : Int) ∈ (r.cursor j).current.operand.places
  run : ∃ s, Simulate.run r.image (r.cursor j).current (r.sim j) = .ok () s ∧ s.slots = slots

/-- **What one move adds** to the stacks that are kept was left by the instruction it starts on. -/
theorem snapshot?_of_run (r : Route) (k x : Nat) :
    (r.sim (k + 1)).snapshot? x = (r.sim k).snapshot? x
      ∨ ∃ slots, r.LeftAt k x slots ∧ (r.sim (k + 1)).snapshot? x = some slots := by
  have hw := r.carries_cursor k
  by_cases hlive : (r.cursor k).fault = none ∧ (r.cursor k).ended = false
  · obtain ⟨hf, he⟩ := hlive
    rcases (r.cursor k).error_or_settled (r.sim k) with ⟨f, s, hstarted, hrun⟩ | ⟨s, hsettled⟩
    -- An instruction that fails keeps nothing.
    · left
      have hsim : r.sim (k + 1) = s := by
        rw [sim, cursor, Cursor.next_of_error hw.simulation hf he hstarted hrun]
        rfl
      rw [hsim, Simulation.snapshot?, (Simulate.failed_of_run hrun).snapshots, Simulation.snapshot?]
    · have hsim : (r.sim (k + 1)).snapshot? x = s.snapshot? x := by
        rw [sim, cursor, Cursor.next_of_settled hw.simulation hf he hsettled]
        by_cases hend : (r.cursor k).code.length ≤ (r.cursor k).nextOffset
        · rw [if_pos hend]
          rfl
        · rw [if_neg hend]
          cases Instruction.decode (r.cursor k).code (r.cursor k).nextOffset with
          | error f => rfl
          | ok i => rfl
      rw [hsim]
      cases hstarted : (r.cursor k).started with
      | false =>
        left
        rw [hsettled.eq_of_not_started hstarted]
      | true =>
        have hran := hsettled.ran hstarted
        rw [hran.snapshot x]
        cases hold : (r.sim k).snapshot? x with
        | some old => exact Or.inl rfl
        | none =>
          rw [Option.none_or]
          by_cases hjump : (r.cursor k).current.offset < x
              ∧ (x : Int) ∈ (r.cursor k).current.operand.places
          · rw [if_pos hjump]
            right
            refine ⟨s.slots, ⟨⟨hstarted, he, hf⟩, hjump.1, hjump.2, s, ?_, rfl⟩, rfl⟩
            rcases hsettled with ⟨hnot, -⟩ | ⟨-, hrun⟩
            · rw [hstarted] at hnot
              cases hnot
            · rw [← hw.image]
              exact hrun
          · rw [if_neg hjump]
            exact Or.inl rfl
  · left
    rw [sim, cursor, Cursor.next_stopped hlive, sim]

/-- Every stack that the walk keeps was left by an instruction before its place. -/
theorem exists_leftAt {k x : Nat} {slots : List Slot}
    (h : (r.sim k).snapshot? x = some slots) : ∃ j, r.LeftAt j x slots := by
  induction k with
  | zero => cases h
  | succ k ih =>
    rcases r.snapshot?_of_run k x with hsame | ⟨left, hleft, hnew⟩
    · exact ih (hsame.symm.trans h)
    · obtain rfl : left = slots := Option.some.inj (hnew.symm.trans h)
      exact ⟨k, hleft⟩

section LeftAt

variable {j x : Nat} {slots : List Slot}

theorem LeftAt.rising (h : r.LeftAt j x slots) : Simulation.Rising slots := by
  obtain ⟨s, hrun, rfl⟩ := h.run
  exact (Simulate.run_exchanged hrun).1.rising h.landed.ordered.slots h.landed.sourced.slots

/-- The values of a stack that was left come from places up to the instruction that left it. -/
theorem LeftAt.sourced (h : r.LeftAt j x slots) :
    ∀ v ∈ slots, r.Visits v.source ∧ v.source ≤ r.place j := by
  obtain ⟨s, hrun, rfl⟩ := h.run
  intro v hv
  rcases (Simulate.ran_of_run hrun).slots v hv with hold | hnew
  · exact ⟨h.landed.sourced_visits.slots v hold, h.landed.sourced.slots v hold⟩
  · rw [hnew]
    exact ⟨h.landed.visits, Nat.le_refl _⟩

end LeftAt

/-! ## The last statement start -/

/-- The places up to `t` that the walk comes to with nothing on the stack. -/
def emptyPlaces (r : Route) (t : Nat) : Set Nat :=
  {p | p ≤ t ∧ ∃ j, r.Landed j ∧ r.place j = p ∧ (r.sim j).slots = []}

theorem Landed.statementStart_of_empty {k : Nat} (h : r.Landed k) (hempty : (r.sim k).slots = []) :
    (r.sim k).statementStart = r.place k := by
  cases k with
  | zero => exact absurd h r.not_landed_zero
  | succ k =>
    obtain ⟨s, i, harr⟩ := h.arrival
    rw [harr.place_eq]
    exact harr.statementStart_of_empty hempty

/-- The statement start is a place with an empty stack, or there has not been one yet. -/
theorem statementStart_cases (r : Route) (k : Nat) :
    (∃ j, j ≤ k ∧ r.Landed j ∧ (r.sim j).slots = [] ∧ r.place j = (r.sim k).statementStart)
      ∨ ((r.sim k).statementStart = 0 ∧ ∀ j, j ≤ k → r.Landed j → (r.sim j).slots ≠ []) := by
  induction k with
  | zero =>
    right
    refine ⟨rfl, ?_⟩
    intro j hj hl
    obtain rfl : j = 0 := Nat.le_zero.mp hj
    exact absurd hl r.not_landed_zero
  | succ k ih =>
    by_cases hempty : r.Landed (k + 1) ∧ (r.sim (k + 1)).slots = []
    · exact Or.inl ⟨k + 1, Nat.le_refl _, hempty.1, hempty.2,
        (hempty.1.statementStart_of_empty hempty.2).symm⟩
    · -- Unless the move arrives with an empty stack, the statement start stays.
      have hsame : (r.sim (k + 1)).statementStart = (r.sim k).statementStart := by
        rcases r.rests_or_arrives k with hr | ⟨s, i, harr⟩
        · exact hr.grown.statementStart
        · have hslots : (s.entrySlots r.image r.handlers i.offset).1 ≠ [] := by
            intro hnil
            refine hempty ⟨harr.landed, ?_⟩
            rw [harr.sim]
            exact hnil
          rw [harr.sim, ← harr.settled.grown.statementStart]
          exact if_neg fun hnil => hslots (List.isEmpty_iff.mp hnil)
      rw [hsame]
      rcases ih with ⟨j, hj, hrest⟩ | ⟨hzero, hnone⟩
      · exact Or.inl ⟨j, Nat.le_succ_of_le hj, hrest⟩
      · refine Or.inr ⟨hzero, ?_⟩
        intro j hj hl hnil
        by_cases hlast : j = k + 1
        · subst hlast
          exact hempty ⟨hl, hnil⟩
        · exact hnone j (by omega) hl hnil

/-- **The last statement start** is the last place so far with nothing on the stack. -/
theorem Landed.greatest_empty {k : Nat} (h : r.Landed k) :
    IsGreatest (r.emptyPlaces (r.place k)) (r.sim k).statementStart
      ∨ (r.emptyPlaces (r.place k) = ∅ ∧ (r.sim k).statementStart = 0) := by
  rcases r.statementStart_cases k with ⟨j, hjk, hj, hempty, hplace⟩ | ⟨hzero, hnone⟩
  · left
    constructor
    · rw [← hplace]
      exact ⟨place_mono hjk, j, hj, rfl, hempty⟩
    · -- A later place with an empty stack would have become the statement start itself.
      rintro p ⟨hle, m, hm, rfl, hnil⟩
      rw [← hm.statementStart_of_empty hnil]
      exact statementStart_mono (le_of_place_le hm h hle)
  · right
    refine ⟨Set.eq_empty_iff_forall_notMem.mpr ?_, hzero⟩
    rintro p ⟨hle, m, hm, rfl, hnil⟩
    exact hnone m (le_of_place_le hm h hle) hm hnil

/-! ## On a cursor -/

/-- What is known about the values of a cursor with simulation `s`. -/
structure Provenance (r : Route) (c : Cursor) (s : Simulation) : Prop where
  /-- From the bottom to the top the values come from later and later places. -/
  rising : c.stack.Pairwise fun v w => v.source ≤ w.source
  /-- They come from instructions of the walk, none of them behind the current one. -/
  visited : ∀ v ∈ c.stack, r.Visits v.source ∧ v.source ≤ c.current.offset
  /-- Only the exception that a handler starts with comes from the current place itself. -/
  exception : ∀ v ∈ c.stack, v.source = c.current.offset →
    c.stack = [v] ∧ r.StartsWith c.current.offset v
  /-- What is kept for a place was left by an instruction before it, and is as much in order. -/
  kept : ∀ x slots, s.snapshot? x = some slots → ∃ j, r.LeftAt j x slots
    ∧ (slots.reverse.Pairwise fun v w => v.source ≤ w.source)
    ∧ ∀ v ∈ slots, r.Visits v.source ∧ v.source ≤ r.place j
  /-- The statement start is the last place so far with an empty stack, or 0 without one. -/
  statementStart : IsGreatest (r.emptyPlaces c.current.offset) s.statementStart
    ∨ (r.emptyPlaces c.current.offset = ∅ ∧ s.statementStart = 0)

/-- A cursor that tracks the walk on an instruction has values as the walk has. -/
theorem Tracks.provenance {k : Nat} {c : Cursor} (h : r.Tracks k c) (hon : c.OnInstruction) :
    ∃ s, c.simulation = some s ∧ r.Provenance c s := by
  obtain ⟨s, hs, hstart⟩ := h
  have hl := hs.onInstruction.mp hon
  have hstack : c.stack = (r.sim k).slots.reverse := by
    rw [Cursor.stack, hs.carries.simulation]
    exact congrArg List.reverse hs.matched.slots
  refine ⟨s, hs.carries.simulation, ?_, ?_, ?_, ?_, ?_⟩
  · rw [hstack, List.pairwise_reverse]
    exact hl.ordered.slots
  · intro v hv
    rw [hstack, List.mem_reverse] at hv
    rw [hs.offset]
    exact ⟨hl.sourced_visits.slots v hv, hl.sourced.slots v hv⟩
  · intro v hv hhere
    rw [hstack, List.mem_reverse] at hv
    rw [hs.offset] at hhere ⊢
    rcases hl.before_or_exception with hbefore | ⟨w, hw, -, hstarts⟩
    · exact absurd hhere (Nat.ne_of_lt (hbefore v hv))
    · rw [hw] at hv
      obtain rfl := List.mem_singleton.mp hv
      rw [hstack, hw]
      exact ⟨rfl, hstarts⟩
  · intro x slots hx
    obtain ⟨m, hm⟩ := hs.drawn x not_false slots hx
    obtain ⟨j, hj⟩ := exists_leftAt hm
    exact ⟨j, hj, List.pairwise_reverse.mpr hj.rising, hj.sourced⟩
  · rw [hs.offset, hstart]
    exact hl.greatest_empty

end Route

/-- **Provenance.** Start a simulation on any cursor and make any moves, each failing or not.
Whenever the cursor then stands on an instruction, its values are in order of the places they come
from, instructions of the walk before the current one; only the exception a handler starts with is
from the current place. The stacks kept for later places are in the same order and were left by
instructions before those places, and the statement start is the last place so far with an empty
stack. -/
theorem simulated_values_have_provenance {c start : Cursor} {args locals : List TypeSig}
    {maxStack : Int} (htrack : Move.trackStack args locals maxStack c = .ok () start)
    (moves : List CursorMove) (hon : (CursorMove.performAll moves start).OnInstruction) :
    ∃ s, (CursorMove.performAll moves start).simulation = some s
      ∧ (Route.ofCursor c args locals).Provenance (CursorMove.performAll moves start) s := by
  obtain ⟨k, -, hk⟩ := Route.tracked_performAll moves
    ⟨0, Nat.le_refl 0, Route.tracks_trackStack htrack⟩
  exact hk.provenance hon

/-- The code of `jumpOver`, where a catch starts behind the jump. -/
def caughtJump : Cursor :=
  { Cursor.start none jumpOver with handlers := [(4, ⟨some .catch, .null⟩)] }

/-- Back from 6, where the value kept by the jump is popped, the catch at 4 has its exception. -/
theorem simulated_values_have_provenance_caughtJump :
    ∃ start d : Cursor, Move.trackStack [] [] 8 caughtJump = .ok () start
      ∧ CursorMove.performAll [.next, .goTo 6, .goTo 4] start = d
      ∧ d.stack.map (·.source) = [4]
      ∧ ∃ s, d.simulation = some s ∧ (Route.ofCursor caughtJump [] []).Provenance d s := by
  have htrack : Move.trackStack [] [] 8 caughtJump
      = .ok () (Route.ofCursor caughtJump [] []).start := rfl
  have hon : (CursorMove.performAll [.next, .goTo 6, .goTo 4]
      (Route.ofCursor caughtJump [] []).start).OnInstruction := by
    refine ⟨?_, ?_, ?_⟩
    all_goals decide +kernel
  refine ⟨_, _, htrack, rfl, ?_, simulated_values_have_provenance htrack _ hon⟩
  decide +kernel

end ManagedImage
