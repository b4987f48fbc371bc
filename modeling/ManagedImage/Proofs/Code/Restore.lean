/-
Marks and the way back to them.

A mark keeps the place of the current instruction and the last statement start;
the stack is rebuilt by a walk from the one to the other. That walk starts with
nothing but an empty stack, so a stack that a jump made before the statement start
has left for a place behind it is lost once the cursor has been reset. `Straddled`
names the instructions that need such a stack: they are all that stands in the
way.
-/
import ManagedImage.Proofs.Code.PathIndependence

set_option autoImplicit false

namespace ManagedImage

/-! ## Where the values on a stack come from -/

/-- Every value that the simulation holds, on its stack or for a later place, was left at a place
with the property `P`. -/
structure Simulation.Sourced (P : Nat → Prop) (s : Simulation) : Prop where
  slots : ∀ v ∈ s.slots, P v.source
  kept : ∀ q slots, s.snapshot? q = some slots → ∀ v ∈ slots, P v.source

namespace Simulation

variable {P Q : Nat → Prop} {s s' : Simulation}

theorem Sourced.mono (h : s.Sourced P) (hPQ : ∀ n, P n → Q n) : s.Sourced Q :=
  ⟨fun v hv => hPQ _ (h.slots v hv), fun q slots hq v hv => hPQ _ (h.kept q slots hq v hv)⟩

theorem sourced_start (P : Nat → Prop) (args locals : List TypeSig) :
    (start args locals).Sourced P := by
  refine ⟨fun v hv => ?_, fun q slots hq => ?_⟩
  · simp only [start, List.not_mem_nil] at hv
  · simp only [snapshot?, start, List.find?_nil, Option.map_none, reduceCtorEq] at hq

/-- What holds of every stack that was kept, and of the stack an instruction leaves, holds of every
stack that is kept afterwards. -/
theorem kept_of_ran {i : Instruction} {K : List Slot → Prop} (hran : Simulate.Ran i s s')
    (hkept : ∀ q slots, s.snapshot? q = some slots → K slots) (hslots : K s'.slots) :
    ∀ q slots, s'.snapshot? q = some slots → K slots := by
  intro q slots hq
  rw [hran.snapshot q] at hq
  rcases Option.or_eq_some_iff.mp hq with hold | ⟨-, hnew⟩
  · exact hkept q slots hold
  · -- A stack that is new for `q` is the one the instruction left.
    by_cases hjump : i.offset < q ∧ (q : Int) ∈ i.operand.places
    · rw [if_pos hjump, Option.some.injEq] at hnew
      rw [← hnew]
      exact hslots
    · rw [if_neg hjump] at hnew
      cases hnew

/-- The stack on entry is the exception of a handler, the one from before, one that was kept, or
empty. -/
theorem entrySlots_of {image : Option Image} {handlers : HandlerMap} {place : Nat}
    {K : List Slot → Prop} (hexception : ∀ h, K (exceptionSlots image h place))
    (hslots : K s.slots) (hkept : ∀ q slots, s.snapshot? q = some slots → K slots) (hnil : K []) :
    K (s.entrySlots image handlers place).1 := by
  unfold entrySlots
  cases handlers.at? place with
  | some h => exact hexception h
  | none =>
    dsimp only
    by_cases hdead : s.dead = true
    · rw [if_pos hdead]
      cases hq : s.snapshot? place with
      | none => exact hnil
      | some slots => exact hkept place slots hq
    · rw [if_neg hdead]
      exact hslots

theorem Sourced.ran {i : Instruction} (h : s.Sourced P) (hi : P i.offset)
    (hran : Simulate.Ran i s s') : s'.Sourced P := by
  have hslots : ∀ v ∈ s'.slots, P v.source := by
    intro v hv
    rcases hran.slots v hv with hold | hnew
    · exact h.slots v hold
    · rw [hnew]
      exact hi
  exact ⟨hslots, kept_of_ran hran h.kept hslots⟩

theorem exceptionSlots_source {image : Option Image} {h : HandlerEntry} {place : Nat} {v : Slot}
    (hv : v ∈ exceptionSlots image h place) : v.source = place := by
  unfold exceptionSlots at hv
  split at hv
  · rw [List.mem_singleton.mp hv]
  · rw [List.mem_singleton.mp hv]
  · cases hv

theorem Sourced.enter {image : Option Image} {handlers : HandlerMap} {place : Nat}
    (h : s.Sourced P) (hplace : P place) : (s.enter image handlers place).Sourced P := by
  refine ⟨?_, h.kept⟩
  refine entrySlots_of (K := fun slots => ∀ v ∈ slots, P v.source) ?_ h.slots h.kept ?_
  · intro entry v hv
    rw [exceptionSlots_source hv]
    exact hplace
  · intro v hv
    cases hv

end Simulation

theorem Cursor.Settled.sourced {c : Cursor} {s s' : Simulation} {P : Nat → Prop}
    (h : c.Settled s s') (hs : s.Sourced P) (hc : c.started = true → P c.current.offset) :
    s'.Sourced P := by
  cases hstarted : c.started with
  | true => exact hs.ran (hc hstarted) (h.ran hstarted)
  | false =>
    rw [h.eq_of_not_started hstarted]
    exact hs

namespace Route

variable {r : Route}

/-- What holds of the places the walk has stood on holds of where all values come from. -/
theorem Landed.sourced_of {P : Nat → Prop} {k : Nat} (h : r.Landed k)
    (hP : ∀ j, j ≤ k → r.Landed j → P (r.place j)) : (r.sim k).Sourced P := by
  induction k with
  | zero => exact absurd h r.not_landed_zero
  | succ k ih =>
    obtain ⟨s, i, harr⟩ := h.arrival
    have hbefore : s.Sourced P := by
      rcases h.pred with rfl | hk
      · exact harr.settled.sourced (Simulation.sourced_start P r.args r.locals)
          fun hstarted => Bool.noConfusion hstarted
      · exact harr.settled.sourced (ih hk fun j hj => hP j (Nat.le_succ_of_le hj))
          fun _ => hP k (Nat.le_succ k) hk
    rw [harr.sim, ← harr.place_eq]
    exact hbefore.enter (hP (k + 1) (Nat.le_refl _) h)

/-- On an instruction of the walk all values come from places up to it. -/
theorem Landed.sourced {k : Nat} (h : r.Landed k) : (r.sim k).Sourced (· ≤ r.place k) :=
  h.sourced_of fun _ hj _ => place_mono hj

/-- What the walk brings to an instruction comes from before it. -/
theorem Arrival.sourced {k : Nat} {s : Simulation} {i : Instruction} (harr : r.Arrival k s i) :
    s.Sourced (· < i.offset) := by
  rcases harr.landed.pred with rfl | hk
  · exact harr.settled.sourced (Simulation.sourced_start _ r.args r.locals)
      fun hstarted => Bool.noConfusion hstarted
  · have hlt := harr.place_le.2 hk.started
    exact harr.settled.sourced (hk.sourced.mono fun n hn => Nat.lt_of_le_of_lt hn hlt)
      fun _ => hlt

/-- What is kept for later places on arrival at an instruction comes from before it. -/
theorem Landed.kept_sourced {k q : Nat} {slots : List Slot} (h : r.Landed k)
    (hq : (r.sim k).snapshot? q = some slots) : ∀ v ∈ slots, v.source < r.place k := by
  cases k with
  | zero => exact absurd h r.not_landed_zero
  | succ k =>
    obtain ⟨s, i, harr⟩ := h.arrival
    rw [harr.sim] at hq
    rw [harr.place_eq]
    exact harr.sourced.kept q slots hq

end Route

/-! ## A walk that starts with nothing -/

/-- A cursor with simulation `t` that has seen no value from before the place `p`. -/
structure Cursor.Since (p : Nat) (c : Cursor) (t : Simulation) : Prop where
  simulation : c.simulation = some t
  nextOffset : p ≤ c.nextOffset
  current : c.started = true → p ≤ c.current.offset
  sourced : t.Sourced (p ≤ ·)

namespace Cursor

variable {p : Nat} {c : Cursor} {t : Simulation}

/-- Moving on brings no value from before that place. -/
theorem Since.next (h : c.Since p t) (hmoved : c.next.1 = true) :
    ∃ t', c.next.2.Since p t' := by
  rcases next_rests_or_arrives h.simulation with ⟨hrest, -⟩ | ⟨s, i, -, -, hs, hdecode, hnext⟩
  · rw [hrest] at hmoved
    cases hmoved
  · obtain ⟨hoffset, hlt, -⟩ := Instruction.decode_ok hdecode
    have hplace : p ≤ i.offset := by
      rw [hoffset]
      exact h.nextOffset
    rw [hnext]
    refine ⟨_, rfl, ?_, fun _ => hplace, (hs.sourced h.sourced h.current).enter hplace⟩
    change p ≤ i.next
    omega

theorem Since.forwardTo (place : Int) (left : Nat) {d : Cursor} :
    ∀ {c : Cursor} {t : Simulation}, c.Since p t → Move.forwardTo place left c = .ok () d →
      ∃ t', d.Since p t' := by
  induction left with
  | zero =>
    intro c t _ hd
    obtain ⟨f, hf⟩ := Route.stopped_eq Unit place c
    rw [Move.forwardTo, hf] at hd
    cases hd
  | succ left ih =>
    intro c t h hd
    rw [Route.forwardTo_succ] at hd
    by_cases hlt : (c.current.offset : Int) < place
    · rw [if_pos hlt] at hd
      cases hmoved : c.next.1 with
      | true =>
        obtain ⟨t', ht'⟩ := h.next hmoved
        have hpair : c.next = (true, c.next.2) := by rw [← hmoved]
        rw [hpair] at hd
        exact ih ht' hd
      | false =>
        have hpair : c.next = (false, c.next.2) := by rw [← hmoved]
        obtain ⟨f, hf⟩ := Route.stopped_eq Unit place c.next.2
        rw [hpair] at hd
        simp only [hf, reduceCtorEq] at hd
    · rw [if_neg hlt] at hd
      rw [← (EStateM.Result.ok.inj hd).2]
      exact ⟨t, h⟩

/-- After a reset a mark is come back to by a walk that starts with nothing. -/
theorem since_restore {offset : Nat} {d : Cursor} (hs : c.simulation = some t)
    (hd : Move.restore ⟨offset, true, some p⟩ c.reset = .ok () d) : ∃ t', d.Since p t' := by
  have hreset : c.reset.simulation = some (.start t.args t.locals) := by
    simp only [reset, hs, Option.map_some, Simulation.reset]
  -- A reset forgets every stack that was kept, and the rewind empties the one at hand.
  have hstart : (Route.rewound c.reset (.start t.args t.locals) p).Since p
      (.start t.args t.locals) :=
    ⟨rfl, Nat.le_refl p, fun h => Bool.noConfusion h, Simulation.sourced_start _ _ _⟩
  rw [Route.restore_eq hreset] at hd
  simp only [EStateM.bind_apply, Route.rewind_eq hreset] at hd
  cases hmoved : (Route.rewound c.reset (.start t.args t.locals) p).next.1 with
  | true =>
    obtain ⟨t', ht'⟩ := hstart.next hmoved
    rw [show (Route.rewound c.reset (.start t.args t.locals) p).next = (true, _) by
      rw [← hmoved]] at hd
    exact ht'.forwardTo offset _ hd
  | false =>
    obtain ⟨f, hf⟩ := Route.stopped_eq Unit p
      (Route.rewound c.reset (.start t.args t.locals) p).next.2
    rw [show (Route.rewound c.reset (.start t.args t.locals) p).next = (false, _) by
      rw [← hmoved]] at hd
    simp only [hf, reduceCtorEq] at hd

end Cursor

/-! ## Straddled instructions -/

namespace Route

variable {r : Route}

/-- An instruction in the middle of a statement that control does not come to from the one before
it, and whose stack was left there before the statement started. -/
structure Straddled (r : Route) (k : Nat) : Prop where
  landed : r.Landed k
  taken : (r.sim k).reshaped = true
  unhandled : r.handlers.at? (r.place k) = none
  inside : (r.sim k).statementStart < r.place k
  early : ∃ j, r.Landed j ∧ r.place j = (r.sim k).statementStart
    ∧ ((r.sim j).snapshot? (r.place k)).isSome = true

/-- Where control does not come from before, and no handler starts, the stack is the one that was
kept for the place. -/
theorem Arrival.slots_of_reshaped {k : Nat} {s : Simulation} {i : Instruction}
    (harr : r.Arrival k s i) (hunhandled : r.handlers.at? i.offset = none)
    (htaken : (r.sim (k + 1)).reshaped = true) :
    (r.sim (k + 1)).slots = (s.snapshot? i.offset).getD [] := by
  rw [harr.sim] at htaken ⊢
  change (s.entrySlots r.image r.handlers i.offset).2 = true at htaken
  change (s.entrySlots r.image r.handlers i.offset).1 = _
  unfold Simulation.entrySlots at htaken ⊢
  rw [hunhandled] at htaken ⊢
  cases hdead : s.dead with
  | true => rfl
  | false =>
    rw [hdead] at htaken
    cases htaken

/-- On arrival with an empty stack a statement starts. -/
theorem Arrival.statementStart_of_empty {k : Nat} {s : Simulation} {i : Instruction}
    (harr : r.Arrival k s i) (hempty : (r.sim (k + 1)).slots = []) :
    (r.sim (k + 1)).statementStart = i.offset := by
  rw [harr.sim] at hempty ⊢
  change (s.entrySlots r.image r.handlers i.offset).1 = [] at hempty
  change (if (s.entrySlots r.image r.handlers i.offset).1.isEmpty then _ else _) = _
  rw [hempty]
  rfl

/-- A straddled instruction has a value on its stack from before its statement. -/
theorem Straddled.exists_early {k : Nat} (h : r.Straddled k) :
    ∃ v ∈ (r.sim k).slots, v.source < (r.sim k).statementStart := by
  have hl := h.landed
  have hinside := h.inside
  obtain ⟨j, hj, hplace, hearly⟩ := h.early
  obtain ⟨slots, hslots⟩ := Option.isSome_iff_exists.mp hearly
  have hjk : j ≤ k := le_of_place_le hj hl (by omega)
  have htaken := h.taken
  have hunhandled := h.unhandled
  cases k with
  | zero => exact absurd hl r.not_landed_zero
  | succ k =>
    obtain ⟨s, i, harr⟩ := hl.arrival
    rw [harr.place_eq] at hinside hunhandled hslots
    have hentry : (r.sim (k + 1)).slots = slots := by
      have hkept := snapshot?_mono hjk hslots
      rw [harr.sim] at hkept
      rw [harr.slots_of_reshaped hunhandled htaken]
      exact congrArg (·.getD []) hkept
    -- The stack is not empty, or the statement would start here.
    cases hcases : slots with
    | nil =>
      have hstart := harr.statementStart_of_empty (hentry.trans hcases)
      omega
    | cons v rest =>
      have hv : v ∈ slots := by
        rw [hcases]
        exact List.mem_cons_self
      refine ⟨v, by rw [hentry]; exact hv, ?_⟩
      rw [← hplace]
      exact hj.kept_sourced hslots v hv

/-! ## Coming back -/

/-- From `e` the mark that is made at `c` can be come back to: the cursor stands on the same
instruction with the same stack. -/
def ReturnsTo (c e : Cursor) : Prop :=
  ∃ m d, Move.mark c = .ok m c ∧ Move.restore m e = .ok () d ∧ d.OnInstruction
    ∧ d.current = c.current ∧ d.stack = c.stack

/-- **A mark is come back to** from everywhere, if its statement has no straddled instruction up
to it. -/
theorem Tracks.returns {k m : Nat} {c e : Cursor} (hc : r.Tracks k c) (hon : c.OnInstruction)
    (he : r.Tracks m e) (hnone : ∀ i, i ≤ k → ¬ r.Straddled i) : ReturnsTo c e := by
  obtain ⟨t, ht, hstart⟩ := hc
  obtain ⟨u, hu, -⟩ := he
  have hl := ht.onInstruction.mp hon
  obtain ⟨j, hjk, hre⟩ := exists_reentry hl.started
  -- Nothing is asked about the stacks that were left before the statement started.
  obtain ⟨d, t', hd, hfollows, -⟩ := follows_rewind (X := fun q => (r.sim j).snapshot? q ≠ none)
    hu.carries hre
    (fun q hq slots hslot => absurd (by rw [hslot]; exact Option.some_ne_none slots) hq)
    (fun q _ slots hslot => hu.drawn q not_false slots hslot)
  -- An instruction in between that takes up an early stack would be straddled.
  have hsafe : ∀ i, j ≤ i → i < k → r.Safe (fun q => (r.sim j).snapshot? q ≠ none) i := by
    intro i hji hik hli hearly htaken
    cases hat : r.handlers.at? (r.place (i + 1)) with
    | some h => rfl
    | none =>
      have hlo := statementStart_mono (r := r) (show j ≤ i + 1 by omega)
      have hhi := statementStart_mono (r := r) (show i + 1 ≤ k by omega)
      have hlt := place_lt hre.landed hli (by omega)
      rw [hre.statementStart] at hlo
      rw [hre.place] at hlt
      have hsame : (r.sim (i + 1)).statementStart = (r.sim k).statementStart := by omega
      refine absurd ?_ (hnone (i + 1) hik)
      refine ⟨hli, htaken, hat, by omega, j, hre.landed, ?_, Option.isSome_iff_ne_none.mpr hearly⟩
      rw [hre.place, hsame]
  have hin := place_lt_length hl
  obtain ⟨v, hd', hfollows', -⟩ := follows_forwardTo hl e.instructionBound hfollows hre.landed
    hjk hsafe (by rw [Cursor.instructionBound, hu.carries.code]; omega)
  refine ⟨_, _, Route.mark_eq c, ?_, hfollows'.onInstruction.mpr hl, ?_, ?_⟩
  · rw [hon.started, ht.carries.simulation, Option.map_some, hstart, ht.offset,
      restore_eq hu.carries.simulation]
    simp only [EStateM.bind_apply, hd, hd']
  · rw [hfollows'.same.current, ht.same.current]
  · rw [Cursor.stack, Cursor.stack, hfollows'.carries.simulation, ht.carries.simulation]
    exact congrArg List.reverse (hfollows'.matched.slots.trans ht.matched.slots.symm)

/-- **A mark on a straddled instruction is lost with a reset.** -/
theorem Straddled.not_returns {k : Nat} {c : Cursor} (h : r.Straddled k) (hc : r.Tracks k c) :
    ¬ ReturnsTo c c.reset := by
  rintro ⟨m, d, hmark, hrestore, -, -, hstack⟩
  obtain ⟨t, ht, hstart⟩ := hc
  obtain ⟨v, hv, hearly⟩ := h.exists_early
  have hon := ht.onInstruction.mpr h.landed
  rw [Route.mark_eq, hon.started, ht.carries.simulation, Option.map_some, hstart] at hmark
  rw [← (EStateM.Result.ok.inj hmark).1] at hrestore
  obtain ⟨t', ht'⟩ := Cursor.since_restore ht.carries.simulation hrestore
  rw [Cursor.stack, Cursor.stack, ht'.simulation, ht.carries.simulation] at hstack
  have hslots : t'.slots = (r.sim k).slots :=
    (List.reverse_inj.mp hstack).trans ht.matched.slots
  rw [← hslots] at hv
  -- But the way back has seen no value from before the statement start.
  have hlate := ht'.sourced.slots v hv
  omega

/-- So many moves forward, and the cursor is as far on the walk. -/
theorem tracks_nexts {c : Cursor} (h : r.Tracks 0 c) (k : Nat) :
    r.Tracks k (CursorMove.performAll (List.replicate k .next) c) := by
  induction k with
  | zero => exact h
  | succ k ih =>
    rw [List.replicate_succ', CursorMove.performAll, List.foldl_append]
    exact ih.next.2

end Route

/-! ## Marks under simulation -/

/-- A move that a mark should outlast. -/
def CursorMove.Plain : CursorMove → Prop
  | .next | .reset | .goTo _ | .statements _ => True
  | .backToStatement | .callArguments => False

/-- **When marks are faithful.** Start a simulation on any cursor. Every mark, made on any
instruction after any moves, can be come back to after any plain moves, if and only if no
instruction of the walk is straddled. -/
theorem marks_return_iff {c start : Cursor} {args locals : List TypeSig} {maxStack : Int}
    (htrack : Move.trackStack args locals maxStack c = .ok () start) :
    (∀ before after : List CursorMove, (∀ m ∈ after, m.Plain) →
        (CursorMove.performAll before start).OnInstruction →
        Route.ReturnsTo (CursorMove.performAll before start)
          (CursorMove.performAll after (CursorMove.performAll before start)))
      ↔ ∀ k, ¬ (Route.ofCursor c args locals).Straddled k := by
  have hstart := Route.tracks_trackStack htrack
  constructor
  · intro hall k hstraddled
    -- The shortest way to lose a mark: forward to the instruction, and a reset.
    have htracks := Route.tracks_nexts hstart k
    have hon := htracks.onInstruction.mpr hstraddled.landed
    refine hstraddled.not_returns htracks (hall (List.replicate k .next) [.reset] ?_ hon)
    intro m hm
    rw [List.mem_singleton.mp hm]
    trivial
  · intro hnone before after _ hon
    have hbefore := Route.tracked_performAll before ⟨0, Nat.le_refl 0, hstart⟩
    -- Where the moves have led does not matter: the way back only needs a cursor on the walk.
    obtain ⟨m, -, hm⟩ := Route.tracked_performAll after hbefore
    obtain ⟨k, -, hk⟩ := hbefore
    exact hk.returns hon hm fun i _ => hnone i

/-- In code without jumps every mark can be come back to. -/
theorem marks_return_iff_pushPop :
    ∃ start : Cursor, Move.trackStack [] [] 8 (Cursor.start none pushPop) = .ok () start
      ∧ ∀ before after : List CursorMove, (∀ m ∈ after, m.Plain) →
        (CursorMove.performAll before start).OnInstruction →
        Route.ReturnsTo (CursorMove.performAll before start)
          (CursorMove.performAll after (CursorMove.performAll before start)) := by
  have htrack : Move.trackStack [] [] 8 (Cursor.start none pushPop)
      = .ok () (Route.start ⟨none, pushPop, [], [], []⟩) := rfl
  refine ⟨_, htrack, (marks_return_iff htrack).mpr fun k h => ?_⟩
  -- The walk has three instructions, and no stack is left for a place at any of them.
  obtain ⟨j, hj, -, hearly⟩ := h.early
  have hlast : ¬ Route.Landed ⟨none, pushPop, [], [], []⟩ 4 := fun h => Bool.noConfusion h.ended
  have hj4 : ¬ 4 ≤ j := fun hle => hlast (hj.of_le (by omega) hle)
  have hj0 : j ≠ 0 := by
    rintro rfl
    exact Route.not_landed_zero _ hj
  obtain rfl | rfl | rfl : j = 1 ∨ j = 2 ∨ j = 3 := by omega
  · exact Bool.noConfusion hearly
  · exact Bool.noConfusion hearly
  · exact Bool.noConfusion hearly

/-- A jump with a value on the stack, over a place where the stack is empty: `ldc.i4.0; ldc.i4.0;
brtrue.s 6; pop; ret` and, at 6, `pop; ret`. -/
def jumpOver : List UInt8 := [0x16, 0x16, 0x2D, 0x02, 0x26, 0x2A, 0x26, 0x2A]

theorem straddled_jumpOver : Route.Straddled ⟨none, jumpOver, [], [], []⟩ 6 := by
  refine ⟨⟨?_, ?_, ?_⟩, ?_, rfl, ?_, 5, ⟨?_, ?_, ?_⟩, ?_, ?_⟩
  all_goals decide +kernel

/-- Not every mark can be come back to: at 6 in `jumpOver`, reset and restored, the stack is
empty. -/
theorem marks_do_not_always_return :
    ¬ ∀ (c start : Cursor) (args locals : List TypeSig) (maxStack : Int),
      Move.trackStack args locals maxStack c = .ok () start →
      ∀ before after : List CursorMove, (∀ m ∈ after, m.Plain) →
        (CursorMove.performAll before start).OnInstruction →
        Route.ReturnsTo (CursorMove.performAll before start)
          (CursorMove.performAll after (CursorMove.performAll before start)) := by
  intro hall
  have htrack : Move.trackStack [] [] 8 (Cursor.start none jumpOver)
      = .ok () (Route.start ⟨none, jumpOver, [], [], []⟩) := rfl
  have hplain : ∀ m ∈ [CursorMove.reset], m.Plain := by
    intro m hm
    rw [List.mem_singleton.mp hm]
    trivial
  have htracks := Route.tracks_nexts (Route.tracks_trackStack htrack) 6
  have hon := htracks.onInstruction.mpr straddled_jumpOver.landed
  exact straddled_jumpOver.not_returns htracks (hall _ _ [] [] 8 htrack _ [.reset] hplain hon)

end ManagedImage
