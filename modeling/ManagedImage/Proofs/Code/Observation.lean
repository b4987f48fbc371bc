/-
What the calls on a cursor depend on.

A simulation keeps a note of its last instruction: how many values it took and left, and whether
the stack was another one before it. Every run starts the note anew, so a cursor that went
elsewhere and came back may hold another note and still answer every call as before.
`Agrees` says that two cursors differ in nothing but the note, and `Blind` that a call keeps this
and has the same outcome on both.

Only the way to a call looks at the note (`originsTo`), and it does so after a move from one
instruction to the next. Such a move writes the whole note, so that there the two cursors are
not only alike but the same (`Agrees.next_eq`).
-/
import ManagedImage.Proofs.Code.PathIndependence

set_option autoImplicit false

namespace ManagedImage

/-! ## Cursors that agree -/

/-- The simulation without the note of its last instruction. -/
def Simulation.bare (s : Simulation) : Simulation :=
  { s with
    popped := 0
    pushed := 0
    reshaped := false }

theorem Simulation.slots_of_bare_eq {s t : Simulation} (h : t.bare = s.bare) :
    t.slots = s.slots := by
  have hslots := congrArg Simulation.slots h
  exact hslots

theorem Simulation.statementStart_of_bare_eq {s t : Simulation} (h : t.bare = s.bare) :
    t.statementStart = s.statementStart := by
  have hstart := congrArg Simulation.statementStart h
  exact hstart

/-- The mark of a jump target is the one of the current instruction. -/
def Cursor.Marked (c : Cursor) : Prop :=
  c.started = true → c.onTarget = c.isTarget c.current.offset

/-- Two marked cursors that differ in nothing but the note of the last instruction. -/
structure Cursor.Agrees (c d : Cursor) : Prop where
  differ : ∃ s t, c.simulation = some s ∧ d = c.withSimulation t ∧ t.bare = s.bare
  marked : c.Marked

namespace Simulate

theorem foldl_keep_reshaped (source : Nat) (places : List Int) (b : Bool) : ∀ s : Simulation,
    places.foldl (Simulation.keep source) { s with reshaped := b }
      = { places.foldl (Simulation.keep source) s with reshaped := b } := by
  induction places with
  | nil => exact fun _ => rfl
  | cons place places ih =>
    intro s
    have hkeep : Simulation.keep source { s with reshaped := b } place
        = { Simulation.keep source s place with reshaped := b } := by
      unfold Simulation.keep
      by_cases hle : place ≤ source
      · rw [if_pos hle, if_pos hle]
      · rw [if_neg hle, if_neg hle]
        by_cases hsome : (s.snapshot? place.toNat).isSome = true
        · rw [if_pos hsome]
          exact if_pos hsome
        · rw [if_neg hsome]
          exact if_neg hsome
    rw [List.foldl_cons, List.foldl_cons, hkeep, ih]

/-- A run hands on whether the stack was another one before, and does not look at it. -/
theorem run_reshaped (image : Option Image) (i : Instruction) (s : Simulation) (b : Bool) :
    run image i { s with reshaped := b }
      = mapState (fun s' => { s' with reshaped := b }) (run image i s) := by
  have hlocal := effect_local image i.normalize
  have hframed := hlocal.framed (cleared s) { cleared s with reshaped := b }
  have hframe := hlocal.frame_eq (cleared s)
  -- The frame of the effect is the one it started with, so only `reshaped` is another.
  have hset : ∀ s' : Simulation, s' = s'.withFrame (cleared s) →
      s'.withFrame { cleared s with reshaped := b } = { s' with reshaped := b } := by
    intro s' hs'
    rw [hs']
    rfl
  rw [run_eq, run_eq, show cleared { s with reshaped := b }
    = (cleared s).withFrame { cleared s with reshaped := b } from rfl, hframed]
  cases heffect : effect image i.normalize (cleared s) with
  | error f s' =>
    rw [heffect] at hframe
    simp only [mapState]
    rw [hset s' hframe]
  | ok _ s' =>
    rw [heffect] at hframe
    simp only [mapState]
    rw [hset s' hframe, afterEffect, foldl_keep_reshaped]
    rfl

/-- **A run does not look at the note** of the instruction before, and its own is the same but for
what it hands on. -/
theorem run_of_bare_eq (image : Option Image) (i : Instruction) {s t : Simulation}
    (h : t.bare = s.bare) :
    run image i t = mapState (fun s' => { s' with reshaped := t.reshaped }) (run image i s) := by
  have hcleared : cleared t = { cleared s with reshaped := t.reshaped } :=
    congrArg (fun u : Simulation => { u with reshaped := t.reshaped }) h
  calc run image i t = run image i (cleared t) := by rw [run_eq, run_eq]; rfl
    _ = run image i { cleared s with reshaped := t.reshaped } := by rw [hcleared]
    _ = mapState (fun s' => { s' with reshaped := t.reshaped }) (run image i (cleared s)) :=
      run_reshaped image i _ _
    _ = mapState (fun s' => { s' with reshaped := t.reshaped }) (run image i s) := by
      rw [run_eq image i (cleared s), run_eq image i s]
      rfl

end Simulate

namespace Cursor

section Agrees

variable {c d : Cursor}

theorem Agrees.refl {s : Simulation} (hs : c.simulation = some s) (hmarked : c.Marked) :
    c.Agrees c := by
  refine ⟨⟨s, s, hs, ?_, rfl⟩, hmarked⟩
  rw [withSimulation, ← hs]

theorem marked_of_not_started (h : c.started = false) : c.Marked := by
  intro hstarted
  rw [h] at hstarted
  cases hstarted

theorem marked_arrive (c : Cursor) (i : Instruction) : (c.arrive i).Marked := fun _ => rfl

/-- **One move on two cursors that agree.** It has the same outcome on both, and on an instruction
they are the same afterwards if they were on one before. -/
theorem Agrees.next (h : c.Agrees d) : d.next.1 = c.next.1 ∧ c.next.2.Agrees d.next.2
    ∧ (c.started = true → c.next.1 = true → d.next.2 = c.next.2) := by
  obtain ⟨⟨s, t, hs, rfl, hbare⟩, hmarked⟩ := id h
  by_cases hlive : c.fault = none ∧ c.ended = false
  · obtain ⟨hf, he⟩ := hlive
    rcases error_or_settled c s with ⟨f, s', hstarted, hrun⟩ | ⟨s', hsettled⟩
    · -- The run fails on both.
      have hrun' := Simulate.run_of_bare_eq c.image c.current hbare
      rw [hrun] at hrun'
      have hc := next_of_error hs hf he hstarted hrun
      have hd := next_of_error (c := c.withSimulation t) rfl hf he hstarted hrun'
      rw [hc, hd]
      refine ⟨rfl, ⟨⟨s', _, rfl, rfl, rfl⟩, hmarked⟩, fun _ h => Bool.noConfusion h⟩
    · -- Both settle, and the notes are the same if there was something to run.
      obtain ⟨t', hsettled', hbare', hsame⟩ : ∃ t', (c.withSimulation t).Settled t t'
          ∧ t'.bare = s'.bare ∧ (c.started = true → ∃ b, t' = { s' with reshaped := b }) := by
        rcases hsettled with ⟨hnot, rfl⟩ | ⟨hstarted, hrun⟩
        · refine ⟨t, .inl ⟨hnot, rfl⟩, hbare, fun hstarted => ?_⟩
          rw [hnot] at hstarted
          cases hstarted
        · have hrun' := Simulate.run_of_bare_eq c.image c.current hbare
          rw [hrun] at hrun'
          exact ⟨_, .inr ⟨hstarted, hrun'⟩, rfl, fun _ => ⟨_, rfl⟩⟩
      have hc := next_of_settled hs hf he hsettled
      have hd := next_of_settled (c := c.withSimulation t) rfl hf he hsettled'
      by_cases hend : c.code.length ≤ c.nextOffset
      · rw [if_pos hend] at hc
        rw [if_pos (show (c.withSimulation t).code.length ≤ (c.withSimulation t).nextOffset from hend)]
          at hd
        rw [hc, hd]
        exact ⟨rfl, ⟨⟨s', t', rfl, rfl, hbare'⟩, hmarked⟩, fun _ h => Bool.noConfusion h⟩
      · rw [if_neg hend] at hc
        rw [if_neg (show ¬ (c.withSimulation t).code.length ≤ (c.withSimulation t).nextOffset from hend)]
          at hd
        rw [show (c.withSimulation t).code = c.code from rfl,
          show (c.withSimulation t).nextOffset = c.nextOffset from rfl] at hd
        cases hdecode : Instruction.decode c.code c.nextOffset with
        | error f =>
          rw [hdecode] at hc hd
          rw [hc, hd]
          exact ⟨rfl, ⟨⟨s', t', rfl, rfl, hbare'⟩, hmarked⟩, fun _ h => Bool.noConfusion h⟩
        | ok i =>
          rw [hdecode] at hc hd
          rw [hc, hd]
          refine ⟨rfl, ⟨⟨_, _, rfl, rfl, ?_⟩, marked_arrive _ i⟩, fun hstarted _ => ?_⟩
          · have henter := congrArg (fun u => (Simulation.enter c.image c.handlers i.offset u).bare) hbare'
            exact henter
          · obtain ⟨b, rfl⟩ := hsame hstarted
            rfl
  · have hc := next_stopped hlive
    have hd := next_stopped (c := c.withSimulation t) hlive
    rw [hc, hd]
    exact ⟨rfl, h, fun _ h => Bool.noConfusion h⟩

theorem Agrees.current (h : c.Agrees d) : d.current = c.current := by
  obtain ⟨s, t, -, rfl, -⟩ := h.differ
  rfl

theorem Agrees.reset (h : c.Agrees d) : c.reset.Agrees d.reset := by
  obtain ⟨⟨s, t, hs, rfl, hbare⟩, -⟩ := h
  have hc : c.reset.simulation = some s.reset := by rw [Cursor.reset, hs]; rfl
  have hreset := congrArg (fun u : Simulation => u.reset.bare) hbare
  exact ⟨⟨s.reset, t.reset, hc, rfl, hreset⟩, marked_of_not_started rfl⟩

theorem started_of_moved {s : Simulation} (hs : c.simulation = some s) (h : c.next.1 = true) :
    c.next.2.started = true := by
  rcases next_rests_or_arrives hs with ⟨hrest, -⟩ | ⟨s', i, -, -, -, -, hnext⟩
  · rw [h] at hrest
    cases hrest
  · rw [hnext]
    rfl

end Agrees

end Cursor

/-! ## Calls that do not look at the note -/

namespace Move

/-- The same outcome on two cursors, which agree afterwards. -/
inductive SameOutcome {α : Type} :
    EStateM.Result Fault Cursor α → EStateM.Result Fault Cursor α → Prop
  | ok (a : α) {c d : Cursor} (h : c.Agrees d) : SameOutcome (.ok a c) (.ok a d)
  | error (f : Fault) {c d : Cursor} (h : c.Agrees d) : SameOutcome (.error f c) (.error f d)

/-- A call that has the same outcome on any two cursors that agree. -/
def Blind {α : Type} (x : Move α) : Prop :=
  ∀ c d : Cursor, c.Agrees d → SameOutcome (x c) (x d)

section Closure

variable {α β : Type}

theorem Blind.pure (a : α) : Blind (Pure.pure a : Move α) := fun _ _ h => .ok a h

theorem Blind.throw (f : Fault) : Blind (throw f : Move α) := fun _ _ h => .error f h

theorem SameOutcome.bind {x : Move α} {f : α → Move β} {c d : Cursor}
    (hx : SameOutcome (x c) (x d)) (hf : ∀ a, Blind (f a)) :
    SameOutcome ((x >>= f) c) ((x >>= f) d) := by
  rw [EStateM.bind_apply, EStateM.bind_apply]
  generalize x c = u at hx ⊢
  generalize x d = v at hx ⊢
  cases hx with
  | ok a h => exact hf a _ _ h
  | error e h => exact .error e h

theorem Blind.bind {x : Move α} {f : α → Move β} (hx : Blind x) (hf : ∀ a, Blind (f a)) :
    Blind (x >>= f) := fun c d h => (hx c d h).bind hf

theorem Blind.ite {p : Prop} [Decidable p] {x y : Move α} (hx : Blind x) (hy : Blind y) :
    Blind (if p then x else y) := by
  by_cases h : p
  · rw [if_pos h]
    exact hx
  · rw [if_neg h]
    exact hy

theorem Blind.ofExcept (e : Except Fault α) : Blind (MonadExcept.ofExcept e : Move α) := by
  cases e with
  | ok a => exact Blind.pure a
  | error f => exact Blind.throw f

/-- What is read of a cursor and is the same on cursors that agree. -/
theorem Blind.get {f : Cursor → Move α} (hf : ∀ c, Blind (f c))
    (hsame : ∀ (c : Cursor) (s t : Simulation), c.simulation = some s → t.bare = s.bare →
      f (c.withSimulation t) = f c) :
    Blind ((MonadState.get : Move Cursor) >>= f) := by
  intro c d h
  have hx := hf c c d h
  obtain ⟨⟨s, t, hs, rfl, hbare⟩, -⟩ := h
  show SameOutcome (f c c) (f (c.withSimulation t) (c.withSimulation t))
  rw [hsame c s t hs hbare]
  exact hx

theorem Blind.requireSimulation {f : Simulation → Move α} (hf : ∀ s, Blind (f s))
    (hsame : ∀ s t : Simulation, t.bare = s.bare → f t = f s) :
    Blind (Move.requireSimulation >>= f) := by
  intro c d h
  have hx := fun s => hf s c d h
  obtain ⟨⟨s, t, hs, rfl, hbare⟩, -⟩ := h
  rw [EStateM.bind_apply, EStateM.bind_apply, Route.requireSimulation_eq hs,
    Route.requireSimulation_eq (c := c.withSimulation t) rfl]
  dsimp only
  rw [hsame s t hbare]
  exact hx s

theorem Blind.modify {g : Cursor → Cursor} (hg : ∀ c d : Cursor, c.Agrees d → (g c).Agrees (g d)) :
    Blind (modify g : Move Unit) := fun c d h => .ok () (hg c d h)

theorem Blind.after {x : Move α} (hx : Blind x) {c d : Cursor} (h : c.Agrees d) :
    (x.after c).Agrees (x.after d) := by
  have hxcd := hx c d h
  rw [Move.after, Move.after]
  generalize x c = u at hxcd ⊢
  generalize x d = v at hxcd ⊢
  cases hxcd with
  | ok a h => exact h
  | error e h => exact h

end Closure

section Calls

variable {α : Type}

theorem next_apply (c : Cursor) : Move.next c = .ok c.next.1 c.next.2 := rfl

theorem blind_next : Blind next := by
  intro c d h
  obtain ⟨hmoved, hagrees, -⟩ := h.next
  rw [next_apply, next_apply, hmoved]
  exact .ok _ hagrees

theorem blind_stopped (place : Int) : Blind (stopped place : Move α) := by
  refine Blind.get (fun c => ?_) fun _ _ _ _ _ => rfl
  cases c.fault with
  | some f => exact Blind.throw f
  | none => exact Blind.throw _

theorem blind_forwardTo (place : Int) (left : Nat) : Blind (forwardTo place left) := by
  induction left with
  | zero => exact blind_stopped place
  | succ left ih =>
    refine Blind.get (fun c => Blind.ite ?_ (Blind.pure _)) fun _ _ _ _ _ => rfl
    exact blind_next.bind fun _ => Blind.ite ih (blind_stopped place)

theorem blind_toFirst (place : Int) : Blind (toFirst place) := by
  refine (Blind.modify fun c d h => h.reset).bind fun _ => blind_next.bind fun _ => ?_
  exact Blind.ite (Blind.pure _) (blind_stopped place)

theorem blind_rewind (place : Nat) : Blind (rewind place) := by
  refine Blind.bind (Blind.modify ?_) fun _ => blind_next.bind fun _ => ?_
  · intro c d h
    obtain ⟨⟨s, t, hs, rfl, hbare⟩, -⟩ := h
    refine ⟨⟨{ s with slots := [], dead := false }, { t with slots := [], dead := false },
      ?_, rfl, ?_⟩, Cursor.marked_of_not_started rfl⟩
    · rw [hs]
      rfl
    · have hcleared := congrArg (fun u : Simulation => { u with slots := [], dead := false }) hbare
      exact hcleared
  · exact Blind.ite (Blind.pure _) (blind_stopped _)

theorem blind_decodeAt (place : Nat) : Blind (decodeAt place) := by
  intro c d h
  obtain ⟨⟨s, t, hs, rfl, hbare⟩, hmarked⟩ := id h
  simp only [decodeAt, EStateM.bind_apply, EStateM.get_apply]
  rw [show (c.withSimulation t).code = c.code from rfl]
  cases hdecode : Instruction.decode c.code place with
  | error f => exact .error f h
  | ok i =>
    refine .ok () ⟨⟨s, t, hs, rfl, hbare⟩, fun _ => ?_⟩
    show c.isTarget place = c.isTarget i.offset
    rw [(Instruction.decode_ok hdecode).1]

theorem blind_goTo (place : Int) : Blind (goTo place) := by
  refine Blind.get (fun c => ?_) fun c s t hs hbare => ?_
  · have hend : Blind (forwardTo place c.instructionBound >>= fun _ => Route.arriveAt place) :=
      (blind_forwardTo place _).bind fun _ =>
        Blind.get (fun c => Blind.ite (Blind.throw _) (Blind.pure _)) fun _ _ _ _ _ => rfl
    refine Blind.ite ((Blind.throw _).bind fun _ => ?_) ?_
    all_goals
      cases c.simulation with
      | none => exact blind_decodeAt place.toNat
      | some s =>
        -- Whichever way the cursor approaches, it goes forward from there.
        refine Blind.ite ((blind_rewind _).bind fun _ => hend) ?_
        exact Blind.ite ((blind_toFirst place).bind fun _ => hend) hend
  · simp only [Cursor.withSimulation, hs, Simulation.statementStart_of_bare_eq hbare]
    rfl

theorem blind_backToStatement : Blind backToStatement := by
  refine Blind.requireSimulation (fun s => ?_) fun s t hbare => ?_
  · exact Blind.get (fun c => Blind.ite (blind_rewind _) (Blind.pure _)) fun _ _ _ _ _ => rfl
  · rw [Simulation.statementStart_of_bare_eq hbare]

theorem blind_statementsAhead (left : Nat) : ∀ limit : Option Nat,
    Blind (statementsAhead left limit) := by
  induction left with
  | zero => exact fun _ => Blind.pure _
  | succ left ih =>
    intro limit
    rw [statementsAhead]
    refine Blind.ite (Blind.pure _) (blind_next.bind fun moved => Blind.ite ?_ ?_)
    · refine Blind.get (fun c => ?_) fun _ _ _ _ _ => rfl
      cases c.fault with
      | none => exact Blind.pure _
      | some f => exact Blind.pure _
    · refine Blind.get (fun c => Blind.ite ?_ (ih _)) fun c s t hs hbare => ?_
      · exact (ih _).bind fun _ => Blind.pure _
      · simp only [Cursor.withSimulation, hs, Option.map_some, Simulation.atStatement,
          Simulation.slots_of_bare_eq hbare]

theorem blind_statements (limit : Option Nat) : Blind (statements limit) := by
  refine Blind.get (fun c => ?_) fun c s t hs hbare => ?_
  · cases c.simulation with
    | none => exact Blind.pure _
    | some s =>
      refine (Blind.modify fun c d h => h.reset).bind fun _ => ?_
      exact Blind.get (fun c => blind_statementsAhead _ limit) fun _ _ _ _ _ => rfl
  · simp only [Cursor.withSimulation, hs]

theorem blind_mark : Blind mark := by
  refine Blind.get (fun c => Blind.pure _) fun c s t hs hbare => ?_
  simp only [Cursor.withSimulation, hs, Option.map_some, Simulation.statementStart_of_bare_eq hbare]

theorem blind_restore (m : Mark) : Blind (restore m) := by
  cases hstarted : m.started with
  | false =>
    intro c d h
    simp only [restore, hstarted, EStateM.bind_apply, EStateM.get_apply]
    exact .ok () h.reset
  | true =>
    refine Blind.get (fun c => ?_) fun c s t hs _ => ?_
    · rw [hstarted]
      cases m.statementStart with
      | none => exact blind_decodeAt m.offset
      | some first =>
        cases c.simulation with
        | none => exact blind_decodeAt m.offset
        | some s => exact (blind_rewind first).bind fun _ => blind_forwardTo _ _
    · simp only [hstarted, Bool.not_true, Bool.false_eq_true, if_false, Cursor.withSimulation, hs]
      cases m.statementStart <;> rfl

/-! ## The way to a call -/

theorem started_of_rewind {c e : Cursor} {s : Simulation} {place : Nat}
    (hs : c.simulation = some s) (h : rewind place c = .ok () e) : e.started = true := by
  rw [Route.rewind_eq hs] at h
  cases hpair : (Route.rewound c s place).next with
  | mk moved d =>
    rw [hpair] at h
    cases moved with
    | true =>
      rw [← (EStateM.Result.ok.inj h).2, show d = (Route.rewound c s place).next.2 by rw [hpair]]
      exact Cursor.started_of_moved rfl (by rw [hpair])
    | false =>
      obtain ⟨f, hf⟩ := Route.stopped_eq Unit place d
      simp only [hf, reduceCtorEq] at h

/-- On the way from an instruction the note is looked at only after a move has written it. -/
theorem sameOutcome_originsTo (call left : Nat) : ∀ {c d : Cursor} (origins : List Nat),
    c.Agrees d → c.started = true →
      SameOutcome (originsTo call left origins c) (originsTo call left origins d) := by
  induction left with
  | zero => exact fun _ h _ => blind_stopped _ _ _ h
  | succ left ih =>
    intro c d origins h hstarted
    obtain ⟨hmoved, hagrees, hsame⟩ := h.next
    obtain ⟨s, t, hs, hd, -⟩ := hagrees.differ
    have ht : d.next.2.simulation = some t := by
      rw [hd]
      rfl
    rw [Route.originsTo_succ _ _ _ hs, Route.originsTo_succ _ _ _ ht, h.current]
    by_cases hlt : c.current.offset < call
    · rw [if_pos hlt, if_pos hlt]
      cases hpair : c.next with
      | mk moved e =>
        rw [hpair] at hmoved hagrees hsame hs
        rw [show d.next = (moved, d.next.2) from Prod.ext hmoved rfl]
        cases moved with
        | true =>
          -- Both arrive at the same cursor, with the same note.
          rw [hsame hstarted rfl] at hagrees ht ⊢
          obtain rfl : t = s := Option.some.inj (ht.symm.trans hs)
          obtain ⟨u, -, hu, -⟩ := h.differ
          have hon := Cursor.started_of_moved hu (by rw [hpair])
          rw [hpair] at hon
          exact ih _ hagrees hon
        | false => exact blind_stopped _ _ _ hagrees
    · rw [if_neg hlt, if_neg hlt]
      exact .ok origins h

theorem blind_lookBack (p call left : Nat) (select : List Nat → List Nat) :
    Blind (Route.lookBack p call left select) := by
  refine blind_mark.bind fun saved c d h => ?_
  have hrewind := blind_rewind p c d h
  obtain ⟨u, -, hu, -⟩ := h.differ
  rw [EStateM.bind_apply, EStateM.bind_apply]
  cases hrun : rewind p c with
  | error f e =>
    rw [hrun] at hrewind
    generalize rewind p d = v at hrewind ⊢
    cases hrewind with
    | error _ h => exact .error f h
  | ok _ e =>
    have hstarted := started_of_rewind hu hrun
    rw [hrun] at hrewind
    generalize rewind p d = v at hrewind ⊢
    cases hrewind with
    | @ok _ _ e' h =>
      obtain ⟨s, t, hs, ht, hbare⟩ := h.differ
      have ht' : e'.simulation = some t := by
        rw [ht]
        rfl
      have hsources : sources t = sources s :=
        congrArg (List.map Slot.source) (Simulation.slots_of_bare_eq hbare)
      dsimp only
      rw [EStateM.bind_apply, EStateM.bind_apply, Route.requireSimulation_eq hs,
        Route.requireSimulation_eq ht']
      dsimp only
      rw [hsources]
      -- Both start with the same beginnings; the way back is blind for any saved place.
      exact (sameOutcome_originsTo call left _ h hstarted).bind fun _ =>
        (blind_restore saved).bind fun _ => Blind.pure _

theorem blind_callArguments : Blind callArguments := by
  refine Blind.requireSimulation (fun s => ?_) fun s t hbare => ?_
  · refine Blind.get (fun c => ?_) fun _ _ _ _ _ => rfl
    -- Each check is a branch that throws, and behind the last one is the look back.
    refine Blind.ite ((Blind.throw _).bind fun _ => ?_) ?_
    all_goals
      refine (Blind.ofExcept _).bind fun sig => ?_
      refine Blind.ite ((Blind.throw _).bind fun _ => ?_) ?_
      · exact blind_lookBack _ _ _ _
      · exact blind_lookBack _ _ _ _
  · have hdepth : t.depth = s.depth := congrArg List.length (Simulation.slots_of_bare_eq hbare)
    rw [hdepth, Simulation.statementStart_of_bare_eq hbare]

end Calls

end Move

/-! ## Whatever is called afterwards -/

/-- A call on a cursor that tracks the stack. -/
inductive CursorCall where
  /-- A move. -/
  | move (m : CursorMove)
  /-- Making a mark. -/
  | mark
  /-- Coming back to a mark. -/
  | restore (m : Move.Mark)

/-- What a call answers. -/
inductive CursorAnswer where
  | done
  | moved (arrived : Bool)
  | statements (entries : List Move.StatementEntry)
  | places (beginnings : List Nat)
  | marked (m : Move.Mark)

/-- A call with its answer. -/
def CursorCall.make : CursorCall → Move CursorAnswer
  | .move .next => return .moved (← Move.next)
  | .move .reset => do
    modify Cursor.reset
    return .done
  | .move (.goTo place) => do
    Move.goTo place
    return .done
  | .move .backToStatement => do
    Move.backToStatement
    return .done
  | .move (.statements limit) => return .statements (← Move.statements limit)
  | .move .callArguments => return .places (← Move.callArguments)
  | .mark => return .marked (← Move.mark)
  | .restore m => do
    Move.restore m
    return .done

namespace Cursor

/-- What a cursor shows. -/
structure View where
  /-- The current instruction. -/
  instruction : Instruction
  /-- The stack before it, the bottom first. -/
  stack : List Slot
  /-- Whether the instruction is jumped to. -/
  onTarget : Bool
  /-- What stopped the cursor. -/
  fault : Option Fault

/-- What a cursor shows now. -/
def view (c : Cursor) : View := ⟨c.current, c.stack, c.onTarget, c.fault⟩

/-- What some calls in a row answer, and what the cursor shows after each. -/
def transcript : List CursorCall → Cursor → List (Except Fault CursorAnswer × View)
  | [], _ => []
  | call :: calls, c => match call.make c with
    | .ok a d => (.ok a, d.view) :: d.transcript calls
    | .error f d => (.error f, d.view) :: d.transcript calls

theorem Agrees.view {c d : Cursor} (h : c.Agrees d) : d.view = c.view := by
  obtain ⟨⟨s, t, hs, rfl, hbare⟩, -⟩ := h
  have hstack : (c.withSimulation t).stack = c.stack := by
    rw [stack, stack, hs]
    exact congrArg List.reverse (Simulation.slots_of_bare_eq hbare)
  rw [Cursor.view, Cursor.view, hstack]
  rfl

end Cursor

theorem CursorCall.blind_make (call : CursorCall) : Move.Blind call.make := by
  cases call with
  | mark => exact Move.blind_mark.bind fun _ => Move.Blind.pure _
  | restore m => exact (Move.blind_restore m).bind fun _ => Move.Blind.pure _
  | move m =>
    cases m with
    | next => exact Move.blind_next.bind fun _ => Move.Blind.pure _
    | reset => exact (Move.Blind.modify fun _ _ h => h.reset).bind fun _ => Move.Blind.pure _
    | goTo place => exact (Move.blind_goTo place).bind fun _ => Move.Blind.pure _
    | backToStatement => exact Move.blind_backToStatement.bind fun _ => Move.Blind.pure _
    | statements limit => exact (Move.blind_statements limit).bind fun _ => Move.Blind.pure _
    | callArguments => exact Move.blind_callArguments.bind fun _ => Move.Blind.pure _

namespace Cursor

/-- **Cursors that agree cannot be told apart** by any calls. -/
theorem Agrees.transcript (calls : List CursorCall) : ∀ {c d : Cursor}, c.Agrees d →
    d.transcript calls = c.transcript calls := by
  induction calls with
  | nil => exact fun _ => rfl
  | cons call calls ih =>
    intro c d h
    have hmake := call.blind_make c d h
    rw [Cursor.transcript, Cursor.transcript]
    generalize call.make c = u at hmake ⊢
    generalize call.make d = v at hmake ⊢
    cases hmake with
    | ok a h => exact congrArg₂ List.cons (by rw [h.view]) (ih h)
    | error f h => exact congrArg₂ List.cons (by rw [h.view]) (ih h)

/-- Cursors that agree still do after the same moves. -/
theorem Agrees.performAll (moves : List CursorMove) : ∀ {c d : Cursor}, c.Agrees d →
    (CursorMove.performAll moves c).Agrees (CursorMove.performAll moves d) := by
  induction moves with
  | nil => exact id
  | cons m moves ih =>
    intro c d h
    apply ih
    cases m with
    | next => exact Move.blind_next.after h
    | reset => exact h.reset
    | goTo place => exact (Move.blind_goTo place).after h
    | backToStatement => exact Move.blind_backToStatement.after h
    | statements limit => exact (Move.blind_statements limit).after h
    | callArguments => exact Move.blind_callArguments.after h

/-- After a simulation has been started, the mark of a jump target stays right under all moves. -/
theorem marked_performAll {c start : Cursor} {args locals : List TypeSig} {maxStack : Int}
    (htrack : Move.trackStack args locals maxStack c = .ok () start) (moves : List CursorMove) :
    (CursorMove.performAll moves start).Marked := by
  obtain ⟨s, hs, -⟩ := Route.tracks_trackStack htrack
  have hnot : start.started = false := hs.same.started
  exact ((Agrees.refl hs.carries.simulation (marked_of_not_started hnot)).performAll moves).marked

end Cursor

end ManagedImage
