/-
Cursors that follow the walk.

A cursor that went back and forth is at some point of the plain walk, but it may
know more: stacks that were left for places it has seen farther along. `Follows`
says that it knows at least what the walk knows at that point, and nothing
that the walk does not come to know (`Drawn`). This is enough to move on with
the walk, because the stack of a place is settled before the walk comes to it.

The relation leaves out a set `X` of places about which nothing is said. A cursor
can then follow a walk from a point where it knows less, as long as the walk
takes up no stack at a place in `X` (`Safe`). For everything but remembered
places `X` is empty.
-/
import ManagedImage.Proofs.Code.Walk

set_option autoImplicit false

namespace ManagedImage

/-! ## Simulations that go on alike -/

/-- The simulation `t` goes on like `s`, as far as places outside `X` matter. -/
structure Simulation.Matches (X : Nat → Prop) (s t : Simulation) : Prop where
  args : t.args = s.args
  locals : t.locals = s.locals
  slots : t.slots = s.slots
  dead : t.dead = s.dead
  kept : ∀ q, ¬ X q → ∀ slots, s.snapshot? q = some slots → t.snapshot? q = some slots

theorem Simulation.Matches.failed {X : Nat → Prop} {s t s' t' : Simulation} (hm : s.Matches X t)
    (hs : Simulate.Failed s s') (ht : Simulate.Failed t t') (hslots : t'.slots = s'.slots) :
    s'.Matches X t' := by
  refine ⟨?_, ?_, hslots, ?_, ?_⟩
  · rw [ht.args, hs.args, hm.args]
  · rw [ht.locals, hs.locals, hm.locals]
  · rw [ht.dead, hs.dead, hm.dead]
  · intro q hq slots hslot
    rw [Simulation.snapshot?, ht.snapshots]
    rw [Simulation.snapshot?, hs.snapshots] at hslot
    exact hm.kept q hq slots hslot

/-- Two cursors are at the same place of the code, in the same condition. -/
structure Cursor.SamePlace (c d : Cursor) : Prop where
  current : c.current = d.current
  started : c.started = d.started
  ended : c.ended = d.ended
  nextOffset : c.nextOffset = d.nextOffset
  fault : c.fault = d.fault

/-- The cursor after so many moves forward. -/
def Cursor.advance : Nat → Cursor → Cursor
  | 0, c => c
  | n + 1, c => c.next.2.advance n

/-- The first of the moves up to `j` that are left after `k`. -/
theorem Cursor.advance_sub {j k : Nat} (h : k < j) (c : Cursor) :
    c.advance (j - k) = c.next.2.advance (j - (k + 1)) := by
  obtain ⟨n, rfl⟩ : ∃ n, j = k + 1 + n := ⟨j - (k + 1), by omega⟩
  rw [show k + 1 + n - k = n + 1 by omega, Nat.add_sub_cancel_left]
  rfl

namespace Route

variable {r : Route} {X : Nat → Prop}

/-- Every stack that is kept for a place outside `X` is one that the walk leaves there. -/
def Drawn (r : Route) (X : Nat → Prop) (t : Simulation) : Prop :=
  ∀ q, ¬ X q → ∀ slots, t.snapshot? q = some slots → ∃ j, (r.sim j).snapshot? q = some slots

/-- The cursor `c` with simulation `t` is where the walk is after `k` moves. -/
structure Follows (r : Route) (X : Nat → Prop) (k : Nat) (c : Cursor) (t : Simulation) : Prop where
  carries : r.Carries c t
  same : c.SamePlace (r.cursor k)
  matched : (r.sim k).Matches X t
  drawn : r.Drawn X t

/-- The next move of the walk does not take up a stack at a place in `X`. -/
def Safe (r : Route) (X : Nat → Prop) (k : Nat) : Prop :=
  r.Landed (k + 1) → X (r.place (k + 1)) → (r.sim (k + 1)).reshaped = true →
    (r.handlers.at? (r.place (k + 1))).isSome = true

theorem safe_empty (r : Route) (k : Nat) : r.Safe (fun _ => False) k := fun _ h => h.elim

theorem Follows.onInstruction {k : Nat} {c : Cursor} {t : Simulation} (h : r.Follows X k c t) :
    c.OnInstruction ↔ r.Landed k := by
  constructor
  · rintro ⟨hs, he, hf⟩
    exact ⟨h.same.started ▸ hs, h.same.ended ▸ he, h.same.fault ▸ hf⟩
  · rintro ⟨hs, he, hf⟩
    exact ⟨h.same.started.trans hs, h.same.ended.trans he, h.same.fault.trans hf⟩

theorem Follows.offset {k : Nat} {c : Cursor} {t : Simulation} (h : r.Follows X k c t) :
    c.current.offset = r.place k := by
  rw [h.same.current]
  rfl

/-! ## One move -/

section Step

variable {k : Nat} {c : Cursor} {t : Simulation}

/-- The two simulations settle alike: what the instruction leaves for a place is the same stack, and
if the cursor had one there already, it is the one the walk has. -/
theorem Follows.settled (h : r.Follows X k c t) {s' t' : Simulation}
    (hs : (r.cursor k).Settled (r.sim k) s') (ht : c.Settled t t') (hslots : t'.slots = s'.slots)
    (hnext : ∀ q, (r.sim (k + 1)).snapshot? q = s'.snapshot? q) :
    s'.Matches X t' ∧ r.Drawn X t' := by
  have hm := h.matched
  cases hstarted : c.started with
  | false =>
    rw [hs.eq_of_not_started (h.same.started ▸ hstarted), ht.eq_of_not_started hstarted]
    exact ⟨hm, h.drawn⟩
  | true =>
    have hrs := hs.ran (h.same.started ▸ hstarted)
    have hrt := ht.ran hstarted
    rw [h.same.current] at hrt
    refine ⟨⟨?_, ?_, hslots, ?_, fun q hq slots hslot => ?_⟩, fun q hq slots hslot => ?_⟩
    · rw [hrt.args, hrs.args, hm.args]
    · rw [hrt.locals, hrs.locals, hm.locals]
    · rw [hrt.dead, hrs.dead, hm.dead]
    · -- The walk has a stack for `q`: from before, or from this instruction.
      rw [hrt.snapshot q, hslots]
      have hwalk := hrs.snapshot q
      cases hold : (r.sim k).snapshot? q with
      | some old =>
        rw [hold, Option.some_or, hslot] at hwalk
        rw [hm.kept q hq old hold, Option.some_or, hwalk]
      | none =>
        rw [hold, Option.none_or, hslot] at hwalk
        cases hhad : t.snapshot? q with
        | none => rw [Option.none_or, ← hwalk]
        | some had =>
          obtain ⟨j, hj⟩ := h.drawn q hq had hhad
          have hnow : (r.sim (k + 1)).snapshot? q = some slots := by rw [hnext, hslot]
          rw [Option.some_or, snapshot?_unique hj hnow]
    · rw [hrt.snapshot q, hslots] at hslot
      cases hhad : t.snapshot? q with
      | some had =>
        rw [hhad, Option.some_or] at hslot
        rw [← hslot]
        exact h.drawn q hq had hhad
      | none =>
        -- A new stack: the walk had none either, so it leaves the same one now.
        rw [hhad, Option.none_or] at hslot
        refine ⟨k + 1, ?_⟩
        have hnone : (r.sim k).snapshot? q = none := by
          cases hold : (r.sim k).snapshot? q with
          | none => rfl
          | some old =>
            rw [hm.kept q hq old hold] at hhad
            cases hhad
        rw [hnext, hrs.snapshot q, hnone, Option.none_or, hslot]

/-- At the place where the walk arrives, a cursor has the walk's stack or none, as the walk does. -/
theorem snapshot?_at_arrival {s' t' : Simulation} {i : Instruction} (harr : r.Arrival k s' i)
    (hm : s'.Matches X t') (hd : r.Drawn X t') (hX : ¬ X i.offset) :
    t'.snapshot? i.offset = s'.snapshot? i.offset := by
  cases hs : s'.snapshot? i.offset with
  | some slots => exact hm.kept i.offset hX slots hs
  | none =>
    cases ht : t'.snapshot? i.offset with
    | none => rfl
    | some slots =>
      obtain ⟨j, hj⟩ := hd i.offset hX slots ht
      have hnow : (r.sim (k + 1)).snapshot? i.offset = none := by
        rw [harr.sim]
        exact hs
      -- The walk leaves that stack at `j`. Before the arrival it would be there now, and after it the
      -- walk leaves nothing for a place it has come to.
      rcases Nat.le_total j (k + 1) with hle | hle
      · rw [snapshot?_mono hle hj] at hnow
        cases hnow
      · rw [snapshot?_stable hle (Nat.le_of_eq harr.place_eq.symm), hnow] at hj
        cases hj

/-- Both enter the place where the walk arrives alike. -/
theorem enter_matches {s' t' : Simulation} {i : Instruction} (harr : r.Arrival k s' i)
    (hm : s'.Matches X t') (hd : r.Drawn X t') (hsafe : r.Safe X k) :
    (r.sim (k + 1)).Matches X (t'.enter r.image r.handlers i.offset)
      ∧ r.Drawn X (t'.enter r.image r.handlers i.offset)
      ∧ (t'.statementStart = s'.statementStart →
        (t'.enter r.image r.handlers i.offset).statementStart = (r.sim (k + 1)).statementStart) := by
  have hsim := harr.sim
  -- What is on the stack on entry: an exception in a handler, what was kept for the place after a
  -- dead end, and otherwise what was there.
  have hentry : (t'.entrySlots r.image r.handlers i.offset).1
      = (s'.entrySlots r.image r.handlers i.offset).1 := by
    have hreshaped : (r.sim (k + 1)).reshaped
        = (s'.entrySlots r.image r.handlers i.offset).2 := by
      rw [hsim]
      rfl
    rw [Simulation.entrySlots] at hreshaped
    rw [Simulation.entrySlots, Simulation.entrySlots, hm.dead]
    cases hat : r.handlers.at? i.offset with
    | some h => rfl
    | none =>
      rw [hat] at hreshaped
      cases hdead : s'.dead with
      | false => exact hm.slots
      | true =>
        -- The stack is taken up here, so nothing is left out about this place.
        have hX : ¬ X i.offset := by
          intro hX
          rw [hdead] at hreshaped
          have hsome := hsafe harr.landed (by rw [harr.place_eq]; exact hX) hreshaped
          rw [harr.place_eq, hat] at hsome
          cases hsome
        have hat := snapshot?_at_arrival harr hm hd hX
        simp only [if_true, hat]
  rw [hsim]
  refine ⟨⟨hm.args, hm.locals, hentry, rfl, hm.kept⟩, hd, fun hstart => ?_⟩
  show (if (t'.entrySlots r.image r.handlers i.offset).1.isEmpty then i.offset else t'.statementStart)
    = if (s'.entrySlots r.image r.handlers i.offset).1.isEmpty then i.offset else s'.statementStart
  rw [hentry, hstart]

/-- The current instruction fails for both, or both settle with the same stack. -/
theorem Follows.error_or_settled (h : r.Follows X k c t) :
    (∃ f s' t', c.started = true ∧ Simulate.run r.image (r.cursor k).current (r.sim k) = .error f s'
        ∧ Simulate.run r.image (r.cursor k).current t = .error f t' ∧ t'.slots = s'.slots)
      ∨ ∃ s' t', (r.cursor k).Settled (r.sim k) s' ∧ c.Settled t t' ∧ t'.slots = s'.slots := by
  have hm := h.matched
  have hw := r.carries_cursor k
  cases hstarted : c.started with
  | false =>
    exact Or.inr
      ⟨r.sim k, t, Or.inl ⟨h.same.started ▸ hstarted, rfl⟩, Or.inl ⟨hstarted, rfl⟩, hm.slots⟩
  | true =>
    rcases Simulate.run_alike r.image (r.cursor k).current hm.args hm.locals hm.slots with
      ⟨s', t', hs, ht, hslots⟩ | ⟨f, s', t', hs, ht, hslots⟩
    · refine Or.inr ⟨s', t', Or.inr ⟨h.same.started ▸ hstarted, ?_⟩, Or.inr ⟨hstarted, ?_⟩, hslots⟩
      · rw [hw.image, hs]
      · rw [h.carries.image, h.same.current, ht]
    · exact Or.inl ⟨f, s', t', rfl, hs, ht, hslots⟩

/-- A cursor has moved on with the walk: it arrives if the walk does and follows it, and it still
agrees with it on the statement start if it did before. -/
def MovedOn (r : Route) (X : Nat → Prop) (k : Nat) (c : Cursor) (t : Simulation) : Prop :=
  (c.next.1 = true ↔ r.Landed (k + 1)) ∧ ∃ t', r.Follows X (k + 1) c.next.2 t'
    ∧ (t.statementStart = (r.sim k).statementStart →
      t'.statementStart = (r.sim (k + 1)).statementStart)

/-- If both stop, at the same place and in the same condition, the cursor has moved on with the
walk. -/
theorem movedOn_of_rest {d d' : Cursor} {s' t' : Simulation}
    (hwalk : (r.cursor k).next = (false, d)) (hnext : c.next = (false, d'))
    (hstop : ¬ (d.fault = none ∧ d.ended = false)) (hd : d.simulation = some s')
    (hcarries : r.Carries d' t') (hsame : d'.SamePlace d) (hm : s'.Matches X t')
    (hdrawn : r.Drawn X t') (hs : s'.statementStart = (r.sim k).statementStart)
    (ht : t'.statementStart = t.statementStart) : r.MovedOn X k c t := by
  have hcursor : r.cursor (k + 1) = d := by rw [cursor, hwalk]
  have hsim : r.sim (k + 1) = s' := by rw [sim, hcursor, hd, Option.getD_some]
  have hnot : ¬ r.Landed (k + 1) := by
    intro hl
    rw [Landed, hcursor] at hl
    exact hstop ⟨hl.fault, hl.ended⟩
  rw [MovedOn, hnext, hsim]
  refine ⟨⟨fun h => Bool.noConfusion h, fun hl => absurd hl hnot⟩, t', ?_, ?_⟩
  · exact ⟨hcarries, by rw [hcursor]; exact hsame, by rw [hsim]; exact hm, hdrawn⟩
  · intro hstart
    rw [ht, hstart, hs]

/-- The current instruction fails for both, and both stop on it. -/
theorem Follows.movedOn_of_error (h : r.Follows X k c t) (hf : (r.cursor k).fault = none)
    (he : (r.cursor k).ended = false) {f : Fault} {s' t' : Simulation} (hstarted : c.started = true)
    (hs : Simulate.run r.image (r.cursor k).current (r.sim k) = .error f s')
    (ht : Simulate.run r.image (r.cursor k).current t = .error f t') (hslots : t'.slots = s'.slots) :
    r.MovedOn X k c t := by
  have hw := r.carries_cursor k
  have hc := h.carries
  have hwnext := Cursor.next_of_error hw.simulation hf he (h.same.started ▸ hstarted)
    (by rw [hw.image]; exact hs)
  have hcnext := Cursor.next_of_error hc.simulation (h.same.fault.trans hf) (h.same.ended.trans he)
    hstarted (by rw [hc.image, h.same.current]; exact ht)
  have hfs := Simulate.failed_of_run hs
  have hft := Simulate.failed_of_run ht
  have hdrawn : r.Drawn X t' := by
    intro q hq slots hslot
    rw [Simulation.snapshot?, hft.snapshots] at hslot
    exact h.drawn q hq slots hslot
  exact movedOn_of_rest hwnext hcnext (fun hl => Option.some_ne_none f hl.1) rfl
    ⟨hc.image, hc.code, hc.handlers, rfl, hft.args.trans hc.args, hft.locals.trans hc.locals⟩
    ⟨h.same.current, h.same.started, h.same.ended, h.same.nextOffset, rfl⟩
    (h.matched.failed hfs hft hslots) hdrawn hfs.statementStart hft.statementStart

/-- Both settle: the code ends, the next instruction cannot be decoded, or both arrive there. -/
theorem Follows.movedOn_of_settled (h : r.Follows X k c t) (hsafe : r.Safe X k)
    (hf : (r.cursor k).fault = none) (he : (r.cursor k).ended = false) {s' t' : Simulation}
    (hs : (r.cursor k).Settled (r.sim k) s') (ht : c.Settled t t') (hslots : t'.slots = s'.slots) :
    r.MovedOn X k c t := by
  have hw := r.carries_cursor k
  have hc := h.carries
  have hwnext := Cursor.next_of_settled hw.simulation hf he hs
  have hcnext :=
    Cursor.next_of_settled hc.simulation (h.same.fault.trans hf) (h.same.ended.trans he) ht
  have hargs := ht.grown.args.trans hc.args
  have hlocals := ht.grown.locals.trans hc.locals
  rw [hw.code] at hwnext
  rw [hc.code, h.same.nextOffset] at hcnext
  by_cases hend : r.code.length ≤ (r.cursor k).nextOffset
  -- At the end of the code and before bytes that are no instruction nothing is entered.
  · rw [if_pos hend] at hwnext hcnext
    obtain ⟨hm, hd⟩ := h.settled hs ht hslots (by rw [sim, cursor, hwnext]; exact fun _ => rfl)
    exact movedOn_of_rest hwnext hcnext (fun hl => Bool.noConfusion hl.2) rfl
      ⟨hc.image, hc.code, hc.handlers, rfl, hargs, hlocals⟩
      ⟨h.same.current, h.same.started, rfl, h.same.nextOffset, h.same.fault⟩ hm hd
      hs.grown.statementStart ht.grown.statementStart
  · rw [if_neg hend] at hwnext hcnext
    cases hdecode : Instruction.decode r.code (r.cursor k).nextOffset with
    | error f =>
      rw [hdecode] at hwnext hcnext
      obtain ⟨hm, hd⟩ := h.settled hs ht hslots (by rw [sim, cursor, hwnext]; exact fun _ => rfl)
      exact movedOn_of_rest hwnext hcnext (fun hl => Option.some_ne_none f hl.1) rfl
        ⟨hc.image, hc.code, hc.handlers, rfl, hargs, hlocals⟩
        ⟨h.same.current, h.same.started, h.same.ended, h.same.nextOffset, rfl⟩ hm hd
        hs.grown.statementStart ht.grown.statementStart
    | ok i =>
      rw [hdecode] at hwnext hcnext
      have harr : r.Arrival k s' i := Arrival.of_next hf he hs hdecode hwnext
      obtain ⟨hm, hd⟩ := h.settled hs ht hslots (by rw [harr.sim]; exact fun _ => rfl)
      obtain ⟨hm', hd', hstart'⟩ := enter_matches harr hm hd hsafe
      rw [MovedOn, hcnext]
      refine ⟨⟨fun _ => harr.landed, fun _ => rfl⟩, t'.enter r.image r.handlers i.offset,
        ⟨⟨hc.image, hc.code, hc.handlers, ?_, hargs, hlocals⟩, ?_, hm', hd'⟩,
        fun hstart => hstart' ?_⟩
      · rw [← hc.image, ← hc.handlers]
        rfl
      · rw [harr.cursor]
        exact ⟨rfl, rfl, h.same.ended, rfl, h.same.fault⟩
      · rw [ht.grown.statementStart, hs.grown.statementStart, hstart]

/-- **One move forward.** A cursor that follows the walk moves on with it. -/
theorem Follows.next (h : r.Follows X k c t) (hsafe : r.Safe X k) : r.MovedOn X k c t := by
  by_cases hlive : (r.cursor k).fault = none ∧ (r.cursor k).ended = false
  · obtain ⟨hf, he⟩ := hlive
    rcases h.error_or_settled with ⟨f, s', t', hstarted, hs, ht, hslots⟩ | ⟨s', t', hs, ht, hslots⟩
    · exact h.movedOn_of_error hf he hstarted hs ht hslots
    · exact h.movedOn_of_settled hsafe hf he hs ht hslots
  · -- The walk has stopped, and so has the cursor: neither moves.
    have hc : ¬ (c.fault = none ∧ c.ended = false) := by
      rw [h.same.fault, h.same.ended]
      exact hlive
    exact movedOn_of_rest (Cursor.next_stopped hlive) (Cursor.next_stopped hc) hlive
      (r.carries_cursor k).simulation h.carries h.same h.matched h.drawn rfl rfl

end Step

/-! ## Going back -/

/-- Put back before the first instruction, any cursor of the route follows the walk from its
start. -/
theorem follows_reset {c : Cursor} {t : Simulation} (h : r.Carries c t) :
    r.Follows X 0 c.reset (.start r.args r.locals) := by
  have hreset : c.reset.simulation = some (.start r.args r.locals) := by
    show c.simulation.map Simulation.reset = _
    rw [h.simulation, Option.map_some, Simulation.reset, h.args, h.locals]
  refine ⟨⟨h.image, h.code, h.handlers, hreset, rfl, rfl⟩, ⟨rfl, rfl, rfl, rfl, rfl⟩,
    ⟨rfl, rfl, rfl, rfl, fun _ _ _ hq => hq⟩, fun q _ slots hq => ?_⟩
  cases hq

/-- A move forward, and what is done depends on whether it arrives. -/
theorem next_then {α : Type} (x y : Move α) (c : Cursor) :
    (Move.next >>= fun moved => if moved = true then x else y) c = match c.next with
      | (true, d) => x d
      | (false, d) => y d := by
  simp only [Move.next, EStateM.bind_apply, EStateM.get_apply, EStateM.set_apply,
    EStateM.pure_apply]
  cases c.next with
  | mk moved d =>
    cases moved with
    | true => rfl
    | false => rfl

/-- The cursor that a rewind moves forward from. -/
def rewound (c : Cursor) (t : Simulation) (p : Nat) : Cursor :=
  { c with
    nextOffset := p
    started := false
    ended := false
    fault := none
    simulation := some { t with slots := [], dead := false } }

theorem rewind_eq {c : Cursor} {t : Simulation} (hs : c.simulation = some t) (p : Nat) :
    Move.rewind p c = match (rewound c t p).next with
      | (true, d) => .ok () d
      | (false, d) => Move.stopped p d := by
  have hmodify : { c with
      nextOffset := p
      started := false
      ended := false
      fault := none
      simulation := c.simulation.map fun s => { s with slots := [], dead := false } }
        = rewound c t p := by
    rw [hs]
    rfl
  rw [Move.rewind, EStateM.bind_apply, EStateM.modify_apply, hmodify]
  exact next_then (pure ()) (Move.stopped p) (rewound c t p)

/-- **A rewind.** At a place the walk can be taken up from, a cursor follows the walk again, if it
knows the stacks that the walk had left there. -/
theorem follows_rewind {c : Cursor} {t : Simulation} {j p : Nat} (hc : r.Carries c t)
    (hre : r.Reentry j p)
    (hkept : ∀ q, ¬ X q → ∀ slots, (r.sim j).snapshot? q = some slots → t.snapshot? q = some slots)
    (hdrawn : r.Drawn X t) :
    ∃ d t', Move.rewind p c = .ok () d ∧ r.Follows X j d t'
      ∧ (t.statementStart = p → t'.statementStart = p) := by
  have hl := hre.landed
  obtain ⟨hdecode, hnextOffset⟩ := (r.position j).1 hl.started
  rw [hre.place] at hdecode
  obtain ⟨hoffset, -, hin⟩ := Instruction.decode_ok hdecode
  have hdead : (r.sim j).dead = false := by
    cases j with
    | zero => rfl
    | succ j =>
      obtain ⟨s, i, harr⟩ := hl.arrival
      rw [harr.sim]
      rfl
  -- Nothing is run on the way back: the cursor is before the first instruction again.
  have hnext := Cursor.next_of_settled (c := rewound c t p) rfl rfl rfl (Or.inl ⟨rfl, rfl⟩)
  rw [if_neg (by show ¬ c.code.length ≤ p; rw [hc.code]; omega)] at hnext
  rw [show (rewound c t p).code = r.code from hc.code, show (rewound c t p).nextOffset = p from rfl,
    hdecode] at hnext
  refine ⟨((rewound c t p).withSimulation { t with slots := [], dead := false }).arrive
      (r.cursor j).current, { t with slots := [], dead := false }.enter r.image r.handlers p,
    by rw [rewind_eq hc.simulation, hnext],
    ⟨⟨hc.image, hc.code, hc.handlers, ?_, hc.args, hc.locals⟩,
      ⟨rfl, hl.started.symm, hl.ended.symm, hnextOffset.symm, hl.fault.symm⟩, ?_, hdrawn⟩, ?_⟩
  · rw [← hc.image, ← hc.handlers, ← hoffset]
    rfl
  · have hw := r.carries_cursor j
    refine ⟨hc.args.trans hw.args.symm, hc.locals.trans hw.locals.symm, ?_, hdead.symm, hkept⟩
    -- The stack on entry with nothing on it is the one the walk has here.
    rw [hre.slots, reentrySlots]
    show (Simulation.entrySlots _ _ _ _).1 = _
    rw [Simulation.entrySlots]
    cases r.handlers.at? p with
    | none => rfl
    | some h => rfl
  · intro hstart
    show (if _ then p else t.statementStart) = p
    rw [hstart]
    exact ite_self p

/-! ## Going forward -/

theorem stopped_eq (α : Type) (place : Int) (c : Cursor) :
    ∃ f, (Move.stopped place : Move α) c = .error f c := by
  simp only [Move.stopped, EStateM.bind_apply, EStateM.get_apply]
  cases c.fault with
  | some f => exact ⟨f, rfl⟩
  | none => exact ⟨_, rfl⟩

theorem forwardTo_succ (place : Int) (left : Nat) (c : Cursor) :
    Move.forwardTo place (left + 1) c = if (c.current.offset : Int) < place then
        match c.next with
        | (true, d) => Move.forwardTo place left d
        | (false, d) => Move.stopped place d
      else .ok () c := by
  rw [Move.forwardTo, EStateM.bind_apply, EStateM.get_apply]
  dsimp only
  by_cases h : (c.current.offset : Int) < place
  · rw [if_pos h, if_pos h]
    exact next_then (Move.forwardTo place left) (Move.stopped place) c
  · rw [if_neg h, if_neg h]
    rfl

/-- **Forward to a place of the walk.** A cursor that follows the walk comes to every instruction
the walk comes to, given a step for each byte in between. -/
theorem follows_forwardTo {j : Nat} (hj : r.Landed j) (left : Nat) :
    ∀ {k : Nat} {c : Cursor} {t : Simulation}, r.Follows X k c t → r.Landed k → k ≤ j →
      (∀ i, k ≤ i → i < j → r.Safe X i) → r.place j - r.place k < left →
      ∃ t', Move.forwardTo (r.place j) left c = .ok () (c.advance (j - k))
        ∧ r.Follows X j (c.advance (j - k)) t'
        ∧ (t.statementStart = (r.sim k).statementStart →
          t'.statementStart = (r.sim j).statementStart) := by
  induction left with
  | zero => intro k c t _ _ _ _ hleft; omega
  | succ left ih =>
    intro k c t h hk hkj hsafe hleft
    rw [forwardTo_succ, h.offset]
    -- The induction is on the moves left; each move that is needed takes up at least a byte.
    by_cases heq : k = j
    · subst heq
      rw [if_neg (by omega), Nat.sub_self]
      exact ⟨t, rfl, h, id⟩
    · have hlt : r.place k < r.place j := place_lt hk hj (by omega)
      have hsucc : r.Landed (k + 1) := hj.of_le (by omega) (by omega)
      have hstep : r.place k < r.place (k + 1) := place_lt hk hsucc (by omega)
      obtain ⟨hmoved, t₁, ht₁, hstart₁⟩ := h.next (hsafe k (Nat.le_refl k) (by omega))
      obtain ⟨t', hd, hfollows, hstart⟩ := ih ht₁ hsucc (by omega)
        (fun i hi hij => hsafe i (by omega) hij) (by omega)
      have hnext : c.next = (true, c.next.2) := by rw [← hmoved.mpr hsucc]
      rw [if_pos (by omega), hnext, Cursor.advance_sub (by omega)]
      exact ⟨t', hd, hfollows, fun h => hstart (hstart₁ h)⟩

end Route

end ManagedImage
