/-
The plain walk over the code of a method.

A route is what a walk depends on: the code, where its tokens are looked up, the
handlers and the types of the variables. `Route.cursor k` is the cursor after
`k` moves forward from a new one; once it has stopped it stays where it is.

Three facts about the walk carry everything that is said about other ways to move.
Places only grow. A stack left for a place is never replaced, and once the walk
has come to a place nothing more is left for it or for one before it
(`snapshot?_stable`). And the last statement start is a place the walk has been
at, with the stack that a cursor has that enters there anew
(`exists_reentry`).
-/
import ManagedImage.Code.Statement
import ManagedImage.Proofs.Code.Locality

set_option autoImplicit false

namespace ManagedImage

/-! ## Decoded instructions -/

theorem Opcode.size_pos (op : Opcode) : 0 < op.size := by
  rw [size, codeSize]
  split <;> decide

namespace Instruction

theorem readOperand_ok {offset : Nat} {op : Opcode} {rest : List UInt8} {i : Instruction}
    (h : readOperand offset op rest = .ok i) : i.offset = offset ∧ 0 < i.size := by
  have hpos := op.size_pos
  simp only [readOperand] at h
  split at h
  · cases h
  · split at h
    · split at h
      · cases h
      · cases h
        exact ⟨rfl, by simp only []; omega⟩
    · cases h
      exact ⟨rfl, by simp only []; omega⟩

/-- A decoded instruction stands where it was looked for, inside the code, and takes at least a
byte. -/
theorem decode_ok {code : List UInt8} {offset : Nat} {i : Instruction}
    (h : decode code offset = .ok i) :
    i.offset = offset ∧ offset < i.next ∧ offset < code.length := by
  have hread : ∀ n rest, readCode offset n rest = .ok i → i.offset = offset ∧ 0 < i.size := by
    intro n rest hn
    rw [readCode] at hn
    split at hn
    · exact readOperand_ok hn
    · cases hn
  rw [decode] at h
  cases hdrop : code.drop offset with
  | nil =>
    rw [hdrop] at h
    cases h
  | cons b rest =>
    -- A byte was read at the offset, so the offset is inside.
    have hin : offset < code.length := by
      apply Nat.lt_of_not_le
      intro hle
      rw [List.drop_eq_nil_of_le hle] at hdrop
      cases hdrop
    have hok : i.offset = offset ∧ 0 < i.size := by
      rw [hdrop] at h
      simp only [read] at h
      split at h
      · split at h
        · cases h
        · exact hread _ _ h
      · exact hread _ _ h
    exact ⟨hok.1, by rw [next]; omega, hin⟩

end Instruction

/-! ## One move forward -/

namespace Cursor

/-- The cursor stands on an instruction: not before the first one, not at the end, not stopped. -/
structure OnInstruction (c : Cursor) : Prop where
  started : c.started = true
  ended : c.ended = false
  fault : c.fault = none

/-- What `settle` has made of a simulation: nothing before the first instruction, a run after it. -/
def Settled (c : Cursor) (s s' : Simulation) : Prop :=
  (c.started = false ∧ s' = s)
    ∨ (c.started = true ∧ Simulate.run c.image c.current s = .ok () s')

/-- The cursor with another simulation. -/
def withSimulation (c : Cursor) (s : Simulation) : Cursor := { c with simulation := some s }

/-- A cursor that has stopped does not move. -/
theorem next_stopped {c : Cursor} (h : ¬ (c.fault = none ∧ c.ended = false)) :
    c.next = (false, c) := by
  have hstop : (c.fault.isSome || c.ended) = true := by
    cases hf : c.fault with
    | some f => rfl
    | none =>
      cases he : c.ended with
      | true => rfl
      | false => exact absurd ⟨hf, he⟩ h
  rw [next, if_pos hstop]

section Next

variable {c : Cursor} {s : Simulation}

/-- A run of the current instruction that fails stops the cursor on it. -/
theorem next_of_error (hs : c.simulation = some s) (hf : c.fault = none) (he : c.ended = false)
    (hstarted : c.started = true) {f : Fault} {s' : Simulation}
    (hrun : Simulate.run c.image c.current s = .error f s') :
    c.next = (false, { c.withSimulation s' with fault := some f }) := by
  have hgo : ¬ (c.fault.isSome || c.ended) = true := by rw [hf, he]; decide
  have hnot : ¬ (!c.started) = true := by rw [hstarted]; decide
  have hsettle : c.settle = { c.withSimulation s' with fault := some f } := by
    rw [settle, hs]
    dsimp only
    rw [if_neg hnot, hrun]
    rfl
  rw [next, if_neg hgo, hsettle]
  exact if_pos rfl

theorem settle_of_settled (hs : c.simulation = some s) {s' : Simulation} (h : c.Settled s s') :
    c.settle = c.withSimulation s' := by
  rcases h with ⟨hstarted, rfl⟩ | ⟨hstarted, hrun⟩
  · have hnot : (!c.started) = true := by rw [hstarted]; decide
    rw [settle, hs]
    dsimp only
    rw [if_pos hnot, withSimulation, ← hs]
  · have hnot : ¬ (!c.started) = true := by rw [hstarted]; decide
    rw [settle, hs]
    dsimp only
    rw [if_neg hnot, hrun]
    rfl

/-- Once the current instruction has been run, the code ends, or the next instruction cannot be
decoded, or the cursor arrives there. -/
theorem next_of_settled (hs : c.simulation = some s) (hf : c.fault = none) (he : c.ended = false)
    {s' : Simulation} (h : c.Settled s s') :
    c.next = if c.code.length ≤ c.nextOffset then (false, { c.withSimulation s' with ended := true })
      else match Instruction.decode c.code c.nextOffset with
        | .error f => (false, { c.withSimulation s' with fault := some f })
        | .ok i => (true, (c.withSimulation s').arrive i) := by
  have hgo : ¬ (c.fault.isSome || c.ended) = true := by rw [hf, he]; decide
  have hnofault : ¬ (c.withSimulation s').fault.isSome = true := by
    show ¬ c.fault.isSome = true
    rw [hf]
    decide
  rw [next, if_neg hgo, settle_of_settled hs h]
  exact if_neg hnofault

/-- The current instruction fails, or the simulation settles. -/
theorem error_or_settled (c : Cursor) (s : Simulation) :
    (∃ f s', c.started = true ∧ Simulate.run c.image c.current s = .error f s')
      ∨ ∃ s', c.Settled s s' := by
  cases hstarted : c.started with
  | false => exact Or.inr ⟨s, Or.inl ⟨hstarted, rfl⟩⟩
  | true =>
    cases hrun : Simulate.run c.image c.current s with
    | ok _ s' => exact Or.inr ⟨s', Or.inr ⟨hstarted, hrun⟩⟩
    | error f s' => exact Or.inl ⟨f, s', rfl, rfl⟩

end Next

/-- What no move forward undoes: variables and statement start stay, and a stack is left only for
a place behind the current instruction that has none. -/
structure Grown (c : Cursor) (s s' : Simulation) : Prop where
  args : s'.args = s.args
  locals : s'.locals = s.locals
  statementStart : s'.statementStart = s.statementStart
  snapshot : ∀ q, s'.snapshot? q = s.snapshot? q
    ∨ (s.snapshot? q = none ∧ c.started = true ∧ c.current.offset < q)

theorem Grown.refl (c : Cursor) (s : Simulation) : c.Grown s s :=
  ⟨rfl, rfl, rfl, fun _ => Or.inl rfl⟩

theorem Grown.of_ran {c : Cursor} {s s' : Simulation} (hstarted : c.started = true)
    (h : Simulate.Ran c.current s s') : c.Grown s s' := by
  refine ⟨h.args, h.locals, h.statementStart, fun q => ?_⟩
  rw [h.snapshot q]
  cases hq : s.snapshot? q with
  | some slots => exact Or.inl rfl
  | none =>
    rw [Option.none_or]
    -- Only a jump of the instruction at hand can have left something new.
    by_cases hjump : c.current.offset < q ∧ (q : Int) ∈ c.current.operand.places
    · exact Or.inr ⟨rfl, hstarted, hjump.1⟩
    · exact Or.inl (if_neg hjump)

theorem Settled.ran {c : Cursor} {s s' : Simulation} (hstarted : c.started = true)
    (h : c.Settled s s') : Simulate.Ran c.current s s' := by
  rcases h with ⟨hnot, -⟩ | ⟨-, hrun⟩
  · rw [hstarted] at hnot
    cases hnot
  · exact Simulate.ran_of_run hrun

theorem Settled.eq_of_not_started {c : Cursor} {s s' : Simulation} (hnot : c.started = false)
    (h : c.Settled s s') : s' = s := by
  rcases h with ⟨-, hs⟩ | ⟨hstarted, -⟩
  · exact hs
  · rw [hnot] at hstarted
    cases hstarted

theorem Settled.grown {c : Cursor} {s s' : Simulation} (h : c.Settled s s') : c.Grown s s' := by
  cases hstarted : c.started with
  | true => exact Grown.of_ran hstarted (h.ran hstarted)
  | false =>
    rw [h.eq_of_not_started hstarted]
    exact Grown.refl c s

/-- A move that does not arrive anywhere: the cursor has stopped where it was. -/
structure Rests (c : Cursor) (s : Simulation) (d : Cursor) (s' : Simulation) : Prop where
  image : d.image = c.image
  code : d.code = c.code
  handlers : d.handlers = c.handlers
  current : d.current = c.current
  started : d.started = c.started
  nextOffset : d.nextOffset = c.nextOffset
  simulation : d.simulation = some s'
  stopped : ¬ (d.fault = none ∧ d.ended = false)
  grown : c.Grown s s'

/-- **A move rests or arrives.** -/
theorem next_rests_or_arrives {c : Cursor} {s : Simulation} (hs : c.simulation = some s) :
    (c.next.1 = false ∧ ∃ s', Rests c s c.next.2 s')
      ∨ ∃ s' i, c.fault = none ∧ c.ended = false ∧ c.Settled s s'
          ∧ Instruction.decode c.code c.nextOffset = .ok i
          ∧ c.next = (true, (c.withSimulation s').arrive i) := by
  by_cases hlive : c.fault = none ∧ c.ended = false
  · obtain ⟨hf, he⟩ := hlive
    -- The current instruction is run first, and it may fail.
    rcases error_or_settled c s with ⟨f, s', hstarted, hrun⟩ | ⟨s', hsettled⟩
    · have hfailed := Simulate.failed_of_run hrun
      rw [next_of_error hs hf he hstarted hrun]
      refine Or.inl ⟨rfl, s', rfl, rfl, rfl, rfl, rfl, rfl, rfl, fun h => Option.some_ne_none _ h.1,
        hfailed.args, hfailed.locals, hfailed.statementStart, fun q => Or.inl ?_⟩
      rw [Simulation.snapshot?, Simulation.snapshot?, hfailed.snapshots]
    · have hnext := next_of_settled hs hf he hsettled
      by_cases hend : c.code.length ≤ c.nextOffset
      · rw [if_pos hend] at hnext
        rw [hnext]
        exact Or.inl ⟨rfl, s', rfl, rfl, rfl, rfl, rfl, rfl, rfl, fun h => Bool.noConfusion h.2,
          hsettled.grown⟩
      · rw [if_neg hend] at hnext
        cases hdecode : Instruction.decode c.code c.nextOffset with
        | error f =>
          rw [hdecode] at hnext
          rw [hnext]
          exact Or.inl ⟨rfl, s', rfl, rfl, rfl, rfl, rfl, rfl, rfl,
            fun h => Option.some_ne_none _ h.1, hsettled.grown⟩
        | ok i =>
          rw [hdecode] at hnext
          exact Or.inr ⟨s', i, hf, he, hsettled, rfl, hnext⟩
  · rw [next_stopped hlive]
    exact Or.inl ⟨rfl, s, rfl, rfl, rfl, rfl, rfl, rfl, hs, hlive, Grown.refl c s⟩

end Cursor

/-! ## Routes -/

/-- What a walk depends on. -/
structure Route where
  /-- Where the tokens of the code are looked up. -/
  image : Option Image
  /-- The code. -/
  code : List UInt8
  /-- The starts of handlers. -/
  handlers : HandlerMap
  /-- The types of the arguments. -/
  args : List TypeSig
  /-- The types of the local variables. -/
  locals : List TypeSig

namespace Route

/-- A new cursor that tracks the stack. -/
def start (r : Route) : Cursor :=
  { Cursor.start r.image r.code with
    handlers := r.handlers
    simulation := some (.start r.args r.locals) }

/-- The cursor after `k` moves forward. -/
def cursor (r : Route) : Nat → Cursor
  | 0 => r.start
  | k + 1 => (r.cursor k).next.2

/-- The simulation after `k` moves forward. -/
def sim (r : Route) (k : Nat) : Simulation :=
  (r.cursor k).simulation.getD (.start r.args r.locals)

/-- The walk stands on an instruction after `k` moves. -/
abbrev Landed (r : Route) (k : Nat) : Prop := (r.cursor k).OnInstruction

/-- The place of the walk after `k` moves. -/
def place (r : Route) (k : Nat) : Nat := (r.cursor k).current.offset

/-- A cursor over the code of a route with a simulation over its variables. -/
structure Carries (r : Route) (c : Cursor) (s : Simulation) : Prop where
  image : c.image = r.image
  code : c.code = r.code
  handlers : c.handlers = r.handlers
  simulation : c.simulation = some s
  args : s.args = r.args
  locals : s.locals = r.locals

variable {r : Route}

theorem Carries.next {c : Cursor} {s : Simulation} (h : r.Carries c s) :
    ∃ s', r.Carries c.next.2 s' := by
  rcases Cursor.next_rests_or_arrives h.simulation with ⟨-, s', hr⟩ | ⟨s', i, -, -, hs, -, hnext⟩
  · exact ⟨s', hr.image.trans h.image, hr.code.trans h.code, hr.handlers.trans h.handlers,
      hr.simulation, hr.grown.args.trans h.args, hr.grown.locals.trans h.locals⟩
  · rw [hnext]
    exact ⟨_, h.image, h.code, h.handlers, rfl, hs.grown.args.trans h.args,
      hs.grown.locals.trans h.locals⟩

theorem carries_cursor (k : Nat) : r.Carries (r.cursor k) (r.sim k) := by
  -- The simulation is not known before the induction is done, so it is first found to exist.
  have h : ∃ s, r.Carries (r.cursor k) s := by
    induction k with
    | zero => exact ⟨_, rfl, rfl, rfl, rfl, rfl, rfl⟩
    | succ k ih =>
      obtain ⟨s, hs⟩ := ih
      exact hs.next
  obtain ⟨s, hs⟩ := h
  have hsim : r.sim k = s := by rw [sim, hs.simulation, Option.getD_some]
  rw [hsim]
  exact hs

/-- An arrival of the walk: the simulation is settled and enters the decoded instruction. -/
structure Arrival (r : Route) (k : Nat) (s : Simulation) (i : Instruction) : Prop where
  fault : (r.cursor k).fault = none
  ended : (r.cursor k).ended = false
  settled : (r.cursor k).Settled (r.sim k) s
  decoded : Instruction.decode r.code (r.cursor k).nextOffset = .ok i
  cursor : r.cursor (k + 1) = ((r.cursor k).withSimulation s).arrive i
  sim : r.sim (k + 1) = s.enter r.image r.handlers i.offset

/-- A move of the walk onto an instruction is an arrival. -/
theorem Arrival.of_next {k : Nat} {s : Simulation} {i : Instruction}
    (hf : (r.cursor k).fault = none) (he : (r.cursor k).ended = false)
    (hs : (r.cursor k).Settled (r.sim k) s)
    (hd : Instruction.decode r.code (r.cursor k).nextOffset = .ok i)
    (hnext : (r.cursor k).next = (true, ((r.cursor k).withSimulation s).arrive i)) :
    r.Arrival k s i := by
  have h := r.carries_cursor k
  have hcursor : r.cursor (k + 1) = ((r.cursor k).withSimulation s).arrive i := by
    rw [Route.cursor, hnext]
  refine ⟨hf, he, hs, hd, hcursor, ?_⟩
  rw [Route.sim, hcursor, ← h.image, ← h.handlers]
  rfl

/-- One step of the walk rests or arrives. -/
theorem rests_or_arrives (r : Route) (k : Nat) :
    Cursor.Rests (r.cursor k) (r.sim k) (r.cursor (k + 1)) (r.sim (k + 1))
      ∨ ∃ s i, r.Arrival k s i := by
  have h := r.carries_cursor k
  rcases Cursor.next_rests_or_arrives h.simulation with ⟨-, s', hr⟩ | ⟨s, i, hf, he, hs, hd, hnext⟩
  · left
    have hsim : r.sim (k + 1) = s' := by
      rw [sim, cursor, hr.simulation, Option.getD_some]
    rw [hsim]
    exact hr
  · right
    rw [h.code] at hd
    exact ⟨s, i, Arrival.of_next hf he hs hd hnext⟩

theorem Arrival.landed {k : Nat} {s : Simulation} {i : Instruction} (h : r.Arrival k s i) :
    r.Landed (k + 1) := by
  rw [Landed, h.cursor]
  exact ⟨rfl, h.ended, h.fault⟩

theorem Arrival.place_eq {k : Nat} {s : Simulation} {i : Instruction} (h : r.Arrival k s i) :
    r.place (k + 1) = i.offset := by
  rw [place, h.cursor]
  rfl

/-- A cursor of the walk that has moved and not stopped stands on an instruction. -/
theorem arrival_of_live {k : Nat} (hf : (r.cursor (k + 1)).fault = none)
    (he : (r.cursor (k + 1)).ended = false) : ∃ s i, r.Arrival k s i := by
  rcases r.rests_or_arrives k with hr | harr
  · exact absurd ⟨hf, he⟩ hr.stopped
  · exact harr

theorem Landed.arrival {k : Nat} (h : r.Landed (k + 1)) : ∃ s i, r.Arrival k s i :=
  arrival_of_live h.fault h.ended

theorem not_landed_zero (r : Route) : ¬ r.Landed 0 := fun h => Bool.noConfusion h.started

theorem Landed.pred {k : Nat} (h : r.Landed (k + 1)) : k = 0 ∨ r.Landed k := by
  obtain ⟨s, i, harr⟩ := h.arrival
  cases k with
  | zero => exact Or.inl rfl
  | succ k =>
    obtain ⟨s', i', harr'⟩ := arrival_of_live harr.fault harr.ended
    exact Or.inr harr'.landed

/-- The walk stands on instructions up to the last one it stands on. -/
theorem Landed.of_le {j k : Nat} (h : r.Landed k) (hj : 0 < j) (hjk : j ≤ k) : r.Landed j := by
  induction k with
  | zero => omega
  | succ k ih =>
    -- Either `j` is the last of them, or the one before the last is still at or behind it.
    by_cases heq : j = k + 1
    · rw [heq]
      exact h
    · rcases h.pred with hzero | hk
      · omega
      · exact ih hk (by omega)

/-! ## Places -/

/-- Where the walk is in the code: behind a decoded instruction, or before the first. -/
theorem position (r : Route) (k : Nat) :
    ((r.cursor k).started = true → Instruction.decode r.code (r.place k) = .ok (r.cursor k).current
        ∧ (r.cursor k).nextOffset = (r.cursor k).current.next)
      ∧ ((r.cursor k).started = false → (r.cursor k).nextOffset = 0
        ∧ (r.cursor k).current = .blank ∧ (r.sim k).statementStart = 0) := by
  induction k with
  | zero => exact ⟨fun h => Bool.noConfusion h, fun _ => ⟨rfl, rfl, rfl⟩⟩
  | succ k ih =>
    -- A move that rests changes none of this; one that arrives decodes what it arrives at.
    rcases r.rests_or_arrives k with hr | ⟨s, i, harr⟩
    · rw [place, hr.started, hr.current, hr.nextOffset, hr.grown.statementStart]
      exact ih
    · have hoffset := (Instruction.decode_ok harr.decoded).1
      refine ⟨fun _ => ?_, fun h => ?_⟩
      · rw [harr.place_eq, harr.cursor, hoffset]
        exact ⟨harr.decoded, rfl⟩
      · rw [harr.cursor] at h
        cases h

theorem Arrival.place_le {k : Nat} {s : Simulation} {i : Instruction} (h : r.Arrival k s i) :
    r.place k ≤ i.offset ∧ ((r.cursor k).started = true → r.place k < i.offset) := by
  have hoffset := (Instruction.decode_ok h.decoded).1
  obtain ⟨hstarted, hnot⟩ := r.position k
  cases hs : (r.cursor k).started with
  | false =>
    obtain ⟨-, hblank, -⟩ := hnot hs
    have hzero : r.place k = 0 := by rw [place, hblank]; rfl
    exact ⟨by omega, fun h => Bool.noConfusion h⟩
  | true =>
    obtain ⟨hdecode, hnext⟩ := hstarted hs
    obtain ⟨hat, hlt, -⟩ := Instruction.decode_ok hdecode
    rw [hnext] at hoffset
    exact ⟨by omega, fun _ => by omega⟩

theorem place_le_succ (r : Route) (k : Nat) : r.place k ≤ r.place (k + 1) := by
  rcases r.rests_or_arrives k with hr | ⟨s, i, harr⟩
  · exact Nat.le_of_eq (by rw [place, place, hr.current])
  · rw [harr.place_eq]
    exact harr.place_le.1

theorem place_mono {j k : Nat} (h : j ≤ k) : r.place j ≤ r.place k := by
  induction h with
  | refl => exact Nat.le_refl _
  | step _ ih => exact Nat.le_trans ih (r.place_le_succ _)

/-- **Places grow** from instruction to instruction. -/
theorem place_lt {j k : Nat} (hj : r.Landed j) (hk : r.Landed k) (h : j < k) :
    r.place j < r.place k := by
  cases k with
  | zero => omega
  | succ k =>
    obtain ⟨s, i, harr⟩ := hk.arrival
    -- Up to `k` places do not fall, and the last move goes past the instruction at `k`.
    have hle : r.place j ≤ r.place k := place_mono (by omega)
    have hstarted : (r.cursor k).started = true := by
      rcases hk.pred with hzero | hlanded
      · have hj0 : j = 0 := by omega
        exact absurd (hj0 ▸ hj) r.not_landed_zero
      · exact hlanded.started
    have hlt := harr.place_le.2 hstarted
    rw [harr.place_eq]
    omega

/-- What is farther along the code comes later in the walk. -/
theorem lt_of_place_lt {j k : Nat} (h : r.place j < r.place k) : j < k := by
  apply Nat.lt_of_not_le
  intro hle
  have := place_mono (r := r) hle
  omega

theorem le_of_place_le {j k : Nat} (hj : r.Landed j) (hk : r.Landed k)
    (h : r.place j ≤ r.place k) : j ≤ k := by
  apply Nat.le_of_not_lt
  intro hlt
  have := place_lt hk hj hlt
  omega

theorem place_injective {j k : Nat} (hj : r.Landed j) (hk : r.Landed k)
    (h : r.place j = r.place k) : j = k := by
  apply Nat.le_antisymm
  · exact le_of_place_le hj hk (Nat.le_of_eq h)
  · exact le_of_place_le hk hj (Nat.le_of_eq h.symm)

/-! ## Stacks left for later places -/

/-- What one step adds lies behind the place it is made from. -/
theorem snapshot?_succ (r : Route) (k q : Nat) :
    (r.sim (k + 1)).snapshot? q = (r.sim k).snapshot? q
      ∨ ((r.sim k).snapshot? q = none ∧ r.place k < q) := by
  rcases r.rests_or_arrives k with hr | ⟨s, i, harr⟩
  · rcases hr.grown.snapshot q with heq | ⟨hnone, -, hlt⟩
    · exact Or.inl heq
    · exact Or.inr ⟨hnone, hlt⟩
  · rw [harr.sim]
    rcases harr.settled.grown.snapshot q with heq | ⟨hnone, -, hlt⟩
    · exact Or.inl heq
    · exact Or.inr ⟨hnone, hlt⟩

/-- A stack that was left for a place is never replaced. -/
theorem snapshot?_mono {j k q : Nat} {slots : List Slot} (hjk : j ≤ k)
    (h : (r.sim j).snapshot? q = some slots) : (r.sim k).snapshot? q = some slots := by
  induction hjk with
  | refl => exact h
  | step _ ih =>
    rcases r.snapshot?_succ _ q with heq | ⟨hnone, -⟩
    · rw [heq, ih]
    · rw [ih] at hnone
      cases hnone

/-- At two points of the walk a place has the same stack, if it has one at both. -/
theorem snapshot?_unique {j k q : Nat} {a b : List Slot} (hj : (r.sim j).snapshot? q = some a)
    (hk : (r.sim k).snapshot? q = some b) : a = b := by
  rcases Nat.le_total j k with hle | hle
  · exact Option.some.inj ((snapshot?_mono hle hj).symm.trans hk)
  · exact Option.some.inj (hj.symm.trans (snapshot?_mono hle hk))

/-- **Nothing is left for a place that the walk has come to.** -/
theorem snapshot?_stable {j k q : Nat} (hjk : j ≤ k) (hq : q ≤ r.place j) :
    (r.sim k).snapshot? q = (r.sim j).snapshot? q := by
  induction hjk with
  | refl => rfl
  | @step k hle ih =>
    rcases r.snapshot?_succ k q with heq | ⟨-, hlt⟩
    · rw [heq, ih]
    -- What is added lies behind where the walk is now, so it is not for `q`.
    · have hmono : r.place j ≤ r.place k := place_mono hle
      omega

/-! ## Statement starts -/

/-- The stack of a cursor that enters a place with nothing on it. -/
def reentrySlots (r : Route) (p : Nat) : List Slot :=
  match r.handlers.at? p with
  | some h => Simulation.exceptionSlots r.image h p
  | none => []

/-- A place the walk has been at from which it can be taken up again: a cursor that enters there
with nothing on the stack has the stack of the walk. -/
structure Reentry (r : Route) (j p : Nat) : Prop where
  landed : r.Landed j
  place : r.place j = p
  slots : (r.sim j).slots = r.reentrySlots p
  statementStart : (r.sim j).statementStart = p

/-- **The last statement start is a place the walk can be taken up from.** -/
theorem exists_reentry {k : Nat} (hstarted : (r.cursor k).started = true) :
    ∃ j, j ≤ k ∧ r.Reentry j (r.sim k).statementStart := by
  induction k with
  | zero => cases hstarted
  | succ k ih =>
    rcases r.rests_or_arrives k with hr | ⟨s, i, harr⟩
    · rw [hr.started] at hstarted
      obtain ⟨j, hj, hre⟩ := ih hstarted
      rw [hr.grown.statementStart]
      exact ⟨j, by omega, hre⟩
    · have hslots : (r.sim (k + 1)).slots = (s.entrySlots r.image r.handlers i.offset).1 := by
        rw [harr.sim]
        rfl
      have hstart : (r.sim (k + 1)).statementStart
          = if (r.sim (k + 1)).slots.isEmpty then i.offset else s.statementStart := by
        rw [hslots, harr.sim]
        rfl
      by_cases hempty : (r.sim (k + 1)).slots.isEmpty = true
      · -- The stack is empty here, so this is the statement start.
        rw [if_pos hempty] at hstart
        refine ⟨k + 1, Nat.le_refl _, harr.landed, ?_, ?_, rfl⟩
        · rw [harr.place_eq, hstart]
        · rw [hstart, List.isEmpty_iff.mp hempty, reentrySlots]
          rw [List.isEmpty_iff, hslots, Simulation.entrySlots] at hempty
          cases hat : r.handlers.at? i.offset with
          | none => rfl
          | some h =>
            rw [hat] at hempty
            exact hempty.symm
      · rw [if_neg hempty] at hstart
        have hsame : s.statementStart = (r.sim k).statementStart :=
          harr.settled.grown.statementStart
        cases hk : (r.cursor k).started with
        | true =>
          obtain ⟨j, hj, hre⟩ := ih hk
          rw [hstart, hsame]
          exact ⟨j, by omega, hre⟩
        | false =>
          -- Only a handler brings something to the first instruction.
          obtain rfl : k = 0 := by
            rcases harr.landed.pred with hzero | hlanded
            · exact hzero
            · rw [hlanded.started] at hk
              cases hk
          have hsim : s = .start r.args r.locals := harr.settled.eq_of_not_started hk
          have hplace : i.offset = 0 := (Instruction.decode_ok harr.decoded).1
          have hzero : (r.sim 1).statementStart = 0 := by
            rw [hstart, hsim]
            rfl
          refine ⟨1, Nat.le_refl _, harr.landed, ?_, ?_, rfl⟩
          · rw [hzero, harr.place_eq, hplace]
          · rw [hzero, hslots, hsim, hplace, Simulation.entrySlots, reentrySlots]
            cases hat : r.handlers.at? 0 with
            | none => rfl
            | some h => rfl

theorem statementStart_le_place (r : Route) (k : Nat) : (r.sim k).statementStart ≤ r.place k := by
  cases hs : (r.cursor k).started with
  | false =>
    obtain ⟨-, -, hzero⟩ := (r.position k).2 hs
    omega
  | true =>
    obtain ⟨j, hj, hre⟩ := exists_reentry hs
    rw [← hre.place]
    exact place_mono hj

/-- Statement starts grow along the walk. -/
theorem statementStart_mono {j k : Nat} (h : j ≤ k) :
    (r.sim j).statementStart ≤ (r.sim k).statementStart := by
  induction h with
  | refl => exact Nat.le_refl _
  | @step k _ ih =>
    refine Nat.le_trans ih ?_
    have hle := r.statementStart_le_place k
    rcases r.rests_or_arrives k with hr | ⟨s, i, harr⟩
    · exact Nat.le_of_eq hr.grown.statementStart.symm
    · have hplace := harr.place_le.1
      have hsame : s.statementStart = (r.sim k).statementStart := harr.settled.grown.statementStart
      rw [harr.sim]
      -- On arrival the statement start stays or jumps to the place itself, which is not before it.
      by_cases hempty : (s.entrySlots r.image r.handlers i.offset).1.isEmpty = true
      · have henter : (s.enter r.image r.handlers i.offset).statementStart = i.offset := if_pos hempty
        omega
      · have henter : (s.enter r.image r.handlers i.offset).statementStart = s.statementStart :=
          if_neg hempty
        omega

end Route

end ManagedImage
