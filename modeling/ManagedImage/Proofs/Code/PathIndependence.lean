/-
However a cursor came to an instruction, it shows what the plain walk shows there.

`Tracked` is the invariant: the cursor follows the walk at some point, nothing
left out, and agrees with it on the statement start. Moving forward keeps it by
`Follows.next`; every other move is made of moves forward and of rewinds, and a
rewind goes to the statement start, where the walk can be taken up. So each move
has one lemma, `tracked_perform` collects them, and the theorem is an induction
over the moves.

That `goTo` arrives wherever the walk does needs the reverse as well: from each of
the three places it may start at, the walk leads forward to the one asked for.
-/
import ManagedImage.Proofs.Code.Follow

set_option autoImplicit false

namespace ManagedImage

/-! ## Moves -/

/-- The cursor after a move, whether it failed or not. -/
def Move.after {α : Type} (x : Move α) (c : Cursor) : Cursor :=
  match x c with
  | .ok _ d => d
  | .error _ d => d

/-- A move of a cursor that tracks the stack. -/
inductive CursorMove where
  /-- To the next instruction. -/
  | next
  /-- Before the first instruction. -/
  | reset
  /-- To the instruction at a place. -/
  | goTo (place : Int)
  /-- To the start of the current statement. -/
  | backToStatement
  /-- Over the starts of the statements, at most `limit` of them if it is given. -/
  | statements (limit : Option Nat)
  /-- Over the arguments of the current call. -/
  | callArguments

namespace CursorMove

/-- The cursor after a move, whether it failed or not. -/
def perform : CursorMove → Cursor → Cursor
  | .next, c => Move.next.after c
  | .reset, c => c.reset
  | .goTo place, c => (Move.goTo place).after c
  | .backToStatement, c => Move.backToStatement.after c
  | .statements limit, c => (Move.statements limit).after c
  | .callArguments, c => Move.callArguments.after c

/-- The cursor after some moves, each made whether or not those before it failed. -/
def performAll (moves : List CursorMove) (c : Cursor) : Cursor :=
  moves.foldl (fun c m => m.perform c) c

end CursorMove

namespace Move

variable {α β : Type}

theorem after_bind (x : Move α) (f : α → Move β) (c : Cursor) :
    (x >>= f).after c = match x c with
      | .ok a d => (f a).after d
      | .error _ d => d := by
  simp only [after, EStateM.bind_apply]
  cases x c with
  | ok a d => rfl
  | error e d => rfl

/-- What does not move the cursor any more makes no difference. -/
theorem after_bind_still (x : Move α) {f : α → Move β} (hf : ∀ a c, (f a).after c = c)
    (c : Cursor) : (x >>= f).after c = x.after c := by
  rw [after_bind, after]
  cases x c with
  | ok a d => exact hf a d
  | error e d => rfl

theorem after_stopped (place : Int) (c : Cursor) : (stopped place : Move α).after c = c := by
  obtain ⟨f, hf⟩ := Route.stopped_eq α place c
  rw [after, hf]

end Move

namespace Route

variable {r : Route}

/-- The cursor follows the walk after `k` moves, with all that it knows, and agrees with it on the
statement start. -/
def Tracks (r : Route) (k : Nat) (c : Cursor) : Prop :=
  ∃ t, r.Follows (fun _ => False) k c t ∧ t.statementStart = (r.sim k).statementStart

/-- The cursor is at some point of the walk, at or behind its point after `j` moves. -/
def Tracked (r : Route) (j : Nat) (c : Cursor) : Prop := ∃ k, j ≤ k ∧ r.Tracks k c

theorem Tracks.offset {k : Nat} {c : Cursor} (h : r.Tracks k c) :
    c.current.offset = r.place k := by
  obtain ⟨t, ht, -⟩ := h
  exact ht.offset

theorem Tracks.onInstruction {k : Nat} {c : Cursor} (h : r.Tracks k c) :
    c.OnInstruction ↔ r.Landed k := by
  obtain ⟨t, ht, -⟩ := h
  exact ht.onInstruction

theorem tracks_reset {k : Nat} {c : Cursor} (h : r.Tracks k c) : r.Tracks 0 c.reset := by
  obtain ⟨t, ht, -⟩ := h
  exact ⟨_, follows_reset ht.carries, rfl⟩

theorem Tracks.next {k : Nat} {c : Cursor} (h : r.Tracks k c) :
    (c.next.1 = true ↔ r.Landed (k + 1)) ∧ r.Tracks (k + 1) c.next.2 := by
  obtain ⟨t, ht, hstart⟩ := h
  obtain ⟨hmoved, t', ht', hstart'⟩ := ht.next (safe_empty r k)
  exact ⟨hmoved, t', ht', hstart' hstart⟩

/-- Back at a place that the walk was taken up from before, the cursor tracks it again. -/
theorem Tracks.rewind {j k p : Nat} {c : Cursor} (h : r.Tracks k c) (hre : r.Reentry j p)
    (hjk : j ≤ k) (hstart : (r.sim k).statementStart = p) :
    ∃ d, Move.rewind p c = .ok () d ∧ r.Tracks j d := by
  obtain ⟨t, ht, hagree⟩ := h
  obtain ⟨d, t', hd, hfollows, hstart'⟩ := follows_rewind ht.carries hre
    (fun q hq slots hslot => ht.matched.kept q hq slots (snapshot?_mono hjk hslot)) ht.drawn
  exact ⟨d, hd, t', hfollows, by rw [hstart' (hagree.trans hstart), hre.statementStart]⟩

theorem Tracks.forwardTo {j k left : Nat} {c : Cursor} (h : r.Tracks k c) (hk : r.Landed k)
    (hj : r.Landed j) (hkj : k ≤ j) (hleft : r.place j - r.place k < left) :
    Move.forwardTo (r.place j) left c = .ok () (c.advance (j - k))
      ∧ r.Tracks j (c.advance (j - k)) := by
  obtain ⟨t, ht, hstart⟩ := h
  obtain ⟨t', hd, hfollows, hstart'⟩ :=
    follows_forwardTo hj left ht hk hkj (fun i _ _ => safe_empty r i) hleft
  exact ⟨hd, t', hfollows, hstart' hstart⟩

/-- Moves forward keep the cursor on the walk, and if they come to an end as asked, the cursor is on
an instruction again or has not moved. -/
theorem tracked_forwardTo (place : Int) (left : Nat) : ∀ {k : Nat} {c : Cursor}, r.Tracks k c →
    ∃ j, k ≤ j ∧ r.Tracks j ((Move.forwardTo place left).after c)
      ∧ (∀ d, Move.forwardTo place left c = .ok () d → r.Landed j ∨ (j = k ∧ place ≤ r.place k)) := by
  induction left with
  | zero =>
    intro k c h
    obtain ⟨f, hf⟩ := stopped_eq Unit place c
    refine ⟨k, Nat.le_refl k, ?_, fun d hd => ?_⟩
    · rw [Move.after, Move.forwardTo, hf]
      exact h
    · rw [Move.forwardTo, hf] at hd
      cases hd
  | succ left ih =>
    intro k c h
    rw [Move.after]
    simp only [forwardTo_succ, h.offset]
    by_cases hlt : (r.place k : Int) < place
    · rw [if_pos hlt]
      obtain ⟨hmoved, hnext⟩ := h.next
      cases hpair : c.next with
      | mk moved d =>
        rw [hpair] at hmoved hnext
        cases moved with
        | true =>
          -- It has moved once, so where it ends it has landed, also if it does not move again.
          obtain ⟨j, hj, htracks, hok⟩ := ih hnext
          refine ⟨j, by omega, htracks, fun e he => Or.inl ?_⟩
          rcases hok e he with hlanded | ⟨rfl, -⟩
          · exact hlanded
          · exact hmoved.mp rfl
        | false =>
          obtain ⟨f, hf⟩ := stopped_eq Unit place d
          simp only [hf]
          exact ⟨k + 1, by omega, hnext, fun e he => by cases he⟩
    · rw [if_neg hlt]
      exact ⟨k, Nat.le_refl k, h, fun _ _ => Or.inr ⟨rfl, by omega⟩⟩

/-! ## Moves to a place -/

theorem toFirst_eq (place : Int) (c : Cursor) :
    Move.toFirst place c = match c.reset.next with
      | (true, d) => .ok () d
      | (false, d) => Move.stopped place d := by
  rw [Move.toFirst, EStateM.bind_apply, EStateM.modify_apply]
  exact next_then (pure ()) (Move.stopped place) c.reset

/-- The first instruction is reached if the walk reaches it. -/
theorem tracks_toFirst {k : Nat} {c : Cursor} (h : r.Tracks k c) (place : Int) :
    (∃ d, Move.toFirst place c = .ok () d ∧ r.Tracks 1 d ∧ r.Landed 1)
      ∨ ∃ f d, Move.toFirst place c = .error f d ∧ r.Tracks 1 d ∧ ¬ r.Landed 1 := by
  obtain ⟨hmoved, hnext⟩ := (tracks_reset h).next
  rw [toFirst_eq]
  cases hpair : c.reset.next with
  | mk moved d =>
    rw [hpair] at hmoved hnext
    cases moved with
    | true => exact Or.inl ⟨d, rfl, hnext, hmoved.mp rfl⟩
    | false =>
      obtain ⟨f, hf⟩ := stopped_eq Unit place d
      exact Or.inr ⟨f, d, hf, hnext, fun hl => Bool.noConfusion (hmoved.mpr hl)⟩

theorem place_one (h : r.Landed 1) : r.place 1 = 0 := by
  obtain ⟨s, i, harr⟩ := h.arrival
  rw [harr.place_eq]
  exact (Instruction.decode_ok harr.decoded).1

/-- How `goTo` gets to a place from which it moves forward. -/
def approach (place : Int) (c : Cursor) (t : Simulation) : Move Unit :=
  if c.started && t.statementStart ≤ place && place ≤ c.current.offset then
    Move.rewind t.statementStart
  else if !c.started || place < t.statementStart then Move.toFirst place
  else pure ()

/-- The end of `goTo`: the instruction has to start at the place itself. -/
def arriveAt (place : Int) : Move Unit := do
  if (← get).current.offset ≠ place then
    throw (.invalidInput .code (targetText place ++ " is not an instruction boundary" : String))

theorem goTo_eq {c : Cursor} {t : Simulation} (hs : c.simulation = some t) {place : Int}
    (hin : ¬ (place < 0 ∨ c.code.length ≤ place)) :
    Move.goTo place c
      = (approach place c t >>= fun _ => Move.forwardTo place c.instructionBound >>= fun _ =>
          arriveAt place) c := by
  simp only [Move.goTo, EStateM.bind_apply, EStateM.get_apply, hin, if_false, pure, hs, approach]
  split
  · rfl
  · split <;> rfl

theorem arriveAt_eq (place : Int) (c : Cursor) :
    (c.current.offset = place → arriveAt place c = .ok () c)
      ∧ (c.current.offset ≠ place → ∃ f, arriveAt place c = .error f c) := by
  have heq : arriveAt place c = (if (c.current.offset : Int) ≠ place then
      (throw (.invalidInput .code (targetText place ++ " is not an instruction boundary" : String)) :
        Move Unit) else pure ()) c := rfl
  refine ⟨fun h => ?_, fun h => ?_⟩
  · rw [heq, if_neg (fun hne => hne h)]
    rfl
  · rw [heq, if_pos h]
    exact ⟨_, rfl⟩

theorem after_arriveAt (place : Int) (c : Cursor) : (arriveAt place).after c = c := by
  obtain ⟨hyes, hno⟩ := arriveAt_eq place c
  by_cases hat : (c.current.offset : Int) = place
  · rw [Move.after, hyes hat]
  · obtain ⟨f, hf⟩ := hno hat
    rw [Move.after, hf]

theorem goTo_outside {c : Cursor} {place : Int} (hout : place < 0 ∨ c.code.length ≤ place) :
    ∃ f, Move.goTo place c = .error f c := by
  refine ⟨.invalidInput .code (targetText place ++ " is outside the code" : String), ?_⟩
  simp only [Move.goTo, EStateM.bind_apply, EStateM.get_apply, hout, if_true]
  rfl

/-- **The approach.** It comes to a point of the walk that is not behind the place, and only fails
if the walk does not even come to the first instruction. -/
theorem tracks_approach {k : Nat} {c : Cursor} {t : Simulation}
    (ht : r.Follows (fun _ => False) k c t) (hstart : t.statementStart = (r.sim k).statementStart)
    {place : Int} (hplace : 0 ≤ place) :
    (∃ d j, approach place c t c = .ok () d ∧ r.Tracks j d ∧ (r.place j : Int) ≤ place
        ∧ (r.Landed j ∨ ((r.cursor j).started = true ∧ (r.place j : Int) < place)))
      ∨ ∃ f d, approach place c t c = .error f d ∧ r.Tracked 0 d ∧ ¬ r.Landed 1 := by
  have htracks : r.Tracks k c := ⟨t, ht, hstart⟩
  -- Three ways to approach: back to the statement start, from the beginning, or from here.
  rw [approach]
  by_cases hback : (c.started && decide ((t.statementStart : Int) ≤ place)
      && decide (place ≤ c.current.offset)) = true
  · -- The place is in the current statement: back to its start.
    rw [if_pos hback]
    rw [Bool.and_eq_true, Bool.and_eq_true, decide_eq_true_eq, decide_eq_true_eq] at hback
    obtain ⟨⟨hstarted, hlo⟩, -⟩ := hback
    rw [ht.same.started] at hstarted
    obtain ⟨j, hj, hre⟩ := exists_reentry hstarted
    rw [← hstart] at hre
    obtain ⟨d, hd, htd⟩ := htracks.rewind hre hj hstart.symm
    refine Or.inl ⟨d, j, hd, htd, ?_, Or.inl hre.landed⟩
    rw [hre.place]
    exact hlo
  · rw [if_neg hback]
    by_cases hfirst : (!c.started || decide (place < t.statementStart)) = true
    · rw [if_pos hfirst]
      rcases tracks_toFirst htracks place with ⟨d, hd, htd, hl⟩ | ⟨f, d, hd, htd, hnot⟩
      · refine Or.inl ⟨d, 1, hd, htd, ?_, Or.inl hl⟩
        rw [place_one hl]
        exact hplace
      · exact Or.inr ⟨f, d, hd, ⟨1, Nat.zero_le 1, htd⟩, hnot⟩
    · -- The place is ahead.
      rw [if_neg hfirst]
      rw [Bool.or_eq_true, not_or, Bool.not_eq_true', Bool.not_eq_false, decide_eq_true_eq] at hfirst
      obtain ⟨hstarted, hlo⟩ := hfirst
      have hahead : (r.place k : Int) < place := by
        rw [hstarted, Bool.true_and, Bool.and_eq_true, decide_eq_true_eq, decide_eq_true_eq,
          ht.offset] at hback
        omega
      rw [ht.same.started] at hstarted
      exact Or.inl ⟨c, k, rfl, htracks, by omega, Or.inr ⟨hstarted, hahead⟩⟩

/-- Wherever the walk comes to a place behind it, it stands on an instruction. -/
theorem landed_of_started {j m : Nat} (hm : r.Landed m) (hstarted : (r.cursor j).started = true)
    (hlt : r.place j < r.place m) : r.Landed j ∧ j ≤ m := by
  have hjm : j ≤ m := Nat.le_of_lt (lt_of_place_lt hlt)
  have hpos : 0 < j := by
    apply Nat.pos_of_ne_zero
    rintro rfl
    cases hstarted
  exact ⟨hm.of_le hpos hjm, hjm⟩

theorem place_lt_length {m : Nat} (hm : r.Landed m) : r.place m < r.code.length :=
  (Instruction.decode_ok ((r.position m).1 hm.started).1).2.2

/-- In any case the cursor is on the walk after a move to a place. -/
theorem tracked_goTo {k : Nat} {c : Cursor} (h : r.Tracks k c) (place : Int) :
    r.Tracked 0 ((Move.goTo place).after c) := by
  obtain ⟨t, ht, hstart⟩ := h
  by_cases hout : place < 0 ∨ c.code.length ≤ place
  · obtain ⟨f, hf⟩ := goTo_outside hout
    rw [Move.after, hf]
    exact ⟨k, Nat.zero_le k, t, ht, hstart⟩
  · have heq : (Move.goTo place).after c
        = (approach place c t >>= fun _ => Move.forwardTo place c.instructionBound >>= fun _ =>
          arriveAt place).after c := by
      rw [Move.after, goTo_eq ht.carries.simulation hout]
      rfl
    rw [heq, Move.after_bind]
    -- After the approach only moves forward are left, and the check at the end moves nothing.
    rcases tracks_approach ht hstart (show 0 ≤ place by omega) with
      ⟨d, j, hd, htd, -⟩ | ⟨f, d, hd, htd, -⟩
    · obtain ⟨j', -, htj', -⟩ := tracked_forwardTo place c.instructionBound htd
      rw [hd]
      dsimp only
      rw [Move.after_bind_still _ fun _ => after_arriveAt place]
      exact ⟨j', Nat.zero_le j', htj'⟩
    · rw [hd]
      exact htd

/-- A move to a place that succeeds leaves the cursor where the walk comes to an instruction at
that place. -/
theorem landed_of_goTo {k : Nat} {c e : Cursor} (h : r.Tracks k c) {place : Int}
    (hok : Move.goTo place c = .ok () e) :
    ∃ m, r.Landed m ∧ (r.place m : Int) = place ∧ r.Tracks m e := by
  obtain ⟨t, ht, hstart⟩ := h
  by_cases hout : place < 0 ∨ c.code.length ≤ place
  · obtain ⟨f, hf⟩ := goTo_outside hout
    rw [hf] at hok
    cases hok
  · rw [goTo_eq ht.carries.simulation hout] at hok
    obtain ⟨_, d, hd, hrest⟩ := EStateM.bind_ok hok
    obtain ⟨_, d', hforward, harrive⟩ := EStateM.bind_ok hrest
    rcases tracks_approach ht hstart (show 0 ≤ place by omega) with
      ⟨d₁, j, hd₁, htd, -, hj⟩ | ⟨f, d₁, hd₁, -⟩
    · rw [hd] at hd₁
      obtain rfl := (EStateM.Result.ok.inj hd₁).2
      obtain ⟨m, -, htm, hlanded⟩ := tracked_forwardTo place c.instructionBound htd
      rw [Move.after, hforward] at htm
      have hland : r.Landed m := by
        -- Without a move forward the approach itself came to the place.
        rcases hlanded d' hforward with hl | ⟨rfl, hge⟩
        · exact hl
        · rcases hj with hl | ⟨-, hlt⟩
          · exact hl
          · omega
      obtain ⟨hyes, hno⟩ := arriveAt_eq place d'
      by_cases hat : (d'.current.offset : Int) = place
      · -- The check at the end moves nothing, so the cursor is the one that came forward.
        rw [hyes hat] at harrive
        obtain rfl := (EStateM.Result.ok.inj harrive).2
        exact ⟨m, hland, by rw [← htm.offset, hat], htm⟩
      · obtain ⟨f, hf⟩ := hno hat
        rw [hf] at harrive
        cases harrive
    · rw [hd] at hd₁
      cases hd₁

/-- To every instruction of the walk a move succeeds. -/
theorem goTo_of_landed {k m : Nat} {c : Cursor} (h : r.Tracks k c) (hm : r.Landed m) :
    ∃ d, Move.goTo (r.place m) c = .ok () d := by
  obtain ⟨t, ht, hstart⟩ := h
  have hcode : c.code = r.code := ht.carries.code
  have hin := place_lt_length hm
  have hinside : ¬ ((r.place m : Int) < 0 ∨ (c.code.length : Int) ≤ r.place m) := by
    rw [hcode]
    omega
  rw [goTo_eq ht.carries.simulation hinside]
  simp only [EStateM.bind_apply]
  rcases tracks_approach ht hstart (Int.natCast_nonneg (r.place m)) with
    ⟨d, j, hd, htd, hle, hj⟩ | ⟨f, d, hd, -, hnot⟩
  · obtain ⟨hl, hjm⟩ : r.Landed j ∧ j ≤ m := by
      rcases hj with hl | ⟨hs, hlt⟩
      · exact ⟨hl, le_of_place_le hl hm (by omega)⟩
      · exact landed_of_started hm hs (by omega)
    obtain ⟨he, hte⟩ := htd.forwardTo hl hm hjm
      (show r.place m - r.place j < c.instructionBound by
        rw [Cursor.instructionBound, hcode]
        omega)
    rw [hd]
    dsimp only
    rw [he]
    exact ⟨_, (arriveAt_eq _ _).1 (congrArg Nat.cast hte.offset)⟩
  · -- The approach cannot have failed: the walk comes to the first instruction.
    have hone : r.Landed 1 := by
      refine hm.of_le Nat.one_pos (Nat.pos_of_ne_zero ?_)
      rintro rfl
      exact r.not_landed_zero hm
    exact absurd hone hnot

/-! ## Statements -/

theorem requireSimulation_eq {c : Cursor} {t : Simulation} (hs : c.simulation = some t) :
    Move.requireSimulation c = .ok t c := by
  simp only [Move.requireSimulation, EStateM.bind_apply, EStateM.get_apply, hs]
  rfl

theorem tracked_backToStatement {k : Nat} {c : Cursor} (h : r.Tracks k c) :
    r.Tracked 0 (Move.backToStatement.after c) := by
  obtain ⟨t, ht, hstart⟩ := h
  have heq : Move.backToStatement c
      = (if c.started then Move.rewind t.statementStart else pure ()) c := by
    simp only [Move.backToStatement, EStateM.bind_apply, requireSimulation_eq ht.carries.simulation,
      EStateM.get_apply]
  rw [Move.after, heq]
  cases hstarted : c.started with
  | false =>
    rw [if_neg Bool.false_ne_true]
    exact ⟨k, Nat.zero_le k, t, ht, hstart⟩
  | true =>
    obtain ⟨j, hj, hre⟩ := exists_reentry (ht.same.started ▸ hstarted)
    rw [← hstart] at hre
    obtain ⟨d, hd, htd⟩ := Tracks.rewind ⟨t, ht, hstart⟩ hre hj hstart.symm
    rw [if_pos rfl, hd]
    exact ⟨j, Nat.zero_le j, htd⟩

/-- A computation that only moves forward along the walk. -/
def Stays {α : Type} (r : Route) (x : Move α) : Prop :=
  ∀ (k : Nat) (c : Cursor), r.Tracks k c → r.Tracked k (x.after c)

section Stays

variable {α β : Type}

theorem stays_pure (a : α) : r.Stays (pure a) := fun k _ h => ⟨k, Nat.le_refl k, h⟩

theorem stays_next : r.Stays Move.next := fun k _ h => ⟨k + 1, Nat.le_succ k, h.next.2⟩

theorem stays_get {f : Cursor → Move α} (hf : ∀ c, r.Stays (f c)) :
    r.Stays ((MonadState.get : Move Cursor) >>= f) := fun k c h => hf c k c h

theorem Stays.bind {x : Move α} {f : α → Move β} (hx : r.Stays x) (hf : ∀ a, r.Stays (f a)) :
    r.Stays (x >>= f) := by
  intro k c h
  have hxc := hx k c h
  rw [Move.after] at hxc
  rw [Move.after_bind]
  cases heq : x c with
  | error e d =>
    rw [heq] at hxc
    exact hxc
  | ok a d =>
    rw [heq] at hxc
    obtain ⟨j, hj, htd⟩ := hxc
    obtain ⟨i, hi, hti⟩ := hf a j d htd
    exact ⟨i, by omega, hti⟩

theorem Stays.ite {c : Prop} [Decidable c] {x y : Move α} (hx : r.Stays x) (hy : r.Stays y) :
    r.Stays (if c then x else y) := by
  by_cases h : c
  · rw [if_pos h]
    exact hx
  · rw [if_neg h]
    exact hy

end Stays

/-- Listing statements only moves forward. -/
theorem stays_statementsAhead (left : Nat) : ∀ limit : Option Nat,
    r.Stays (Move.statementsAhead left limit) := by
  induction left with
  | zero => exact fun _ => stays_pure _
  | succ left ih =>
    intro limit
    rw [Move.statementsAhead]
    refine Stays.ite (stays_pure _) (stays_next.bind fun moved => Stays.ite ?_ ?_)
    · refine stays_get fun c => ?_
      cases c.fault with
      | none => exact stays_pure _
      | some f => exact stays_pure _
    · exact stays_get fun c => Stays.ite ((ih _).bind fun _ => stays_pure _) (ih _)

theorem tracked_statements {k : Nat} {c : Cursor} (h : r.Tracks k c) (limit : Option Nat) :
    r.Tracked 0 ((Move.statements limit).after c) := by
  have hreset := tracks_reset h
  obtain ⟨t, ht, -⟩ := h
  have heq : Move.statements limit c
      = Move.statementsAhead c.reset.instructionBound limit c.reset := by
    simp only [Move.statements, EStateM.bind_apply, EStateM.get_apply,
      ht.carries.simulation, EStateM.modify_apply]
  rw [Move.after, heq]
  exact stays_statementsAhead _ limit 0 c.reset hreset

/-! ## Arguments of calls -/

/-- A move forward, and a look at the stack where it arrives. -/
theorem next_then_simulation {α : Type} {c : Cursor} {t : Simulation}
    (hs : c.next.2.simulation = some t) (f : Simulation → Move α) (y : Move α) :
    (Move.next >>= fun moved => if moved = true then Move.requireSimulation >>= f else y) c
      = match c.next with
        | (true, d) => f t d
        | (false, d) => y d := by
  rw [next_then]
  cases hpair : c.next with
  | mk moved d =>
    rw [hpair] at hs
    cases moved with
    | true =>
      dsimp only
      rw [EStateM.bind_apply, requireSimulation_eq hs]
    | false => rfl

theorem originsTo_succ {c : Cursor} {t : Simulation} (call left : Nat) (origins : List Nat)
    (hs : c.next.2.simulation = some t) : Move.originsTo call (left + 1) origins c
      = if c.current.offset < call then
          match c.next with
          | (true, d) =>
            Move.originsTo call left (Move.originsAfter c.current.offset origins t) d
          | (false, d) => Move.stopped call d
        else .ok origins c := by
  rw [Move.originsTo, EStateM.bind_apply, EStateM.get_apply]
  dsimp only
  by_cases h : c.current.offset < call
  · rw [if_pos h, if_pos h]
    exact next_then_simulation hs _ _
  · rw [if_neg h, if_neg h]
    rfl

/-- Following the origins of values does not move past the call. -/
theorem tracked_originsTo {k : Nat} (left : Nat) : ∀ {i : Nat} {c : Cursor} (origins : List Nat),
    r.Tracks i c → i ≤ k →
      ∃ m, i ≤ m ∧ m ≤ k ∧ r.Tracks m ((Move.originsTo (r.place k) left origins).after c) := by
  induction left with
  | zero =>
    intro i c origins h hik
    refine ⟨i, Nat.le_refl i, hik, ?_⟩
    rw [Move.originsTo, Move.after_stopped]
    exact h
  | succ left ih =>
    intro i c origins h hik
    have hnext := h.next.2
    obtain ⟨t, ht, -⟩ := id h
    obtain ⟨t', ht', -⟩ := id hnext
    rw [Move.after, originsTo_succ (r.place k) left origins ht'.carries.simulation, ht.offset]
    by_cases hlt : r.place i < r.place k
    · -- The call is still ahead, so the next move does not go past it.
      have hsucc : i + 1 ≤ k := lt_of_place_lt hlt
      rw [if_pos hlt]
      cases hpair : c.next with
      | mk moved d =>
        rw [hpair] at hnext
        cases moved with
        | true =>
          obtain ⟨m, hm, hmk, htm⟩ := ih (Move.originsAfter (r.place i) origins t') hnext hsucc
          exact ⟨m, by omega, hmk, htm⟩
        | false =>
          obtain ⟨f, hf⟩ := stopped_eq (List Nat) (r.place k) d
          simp only [hf]
          exact ⟨i + 1, Nat.le_succ i, hsucc, hnext⟩
    · rw [if_neg hlt]
      exact ⟨i, Nat.le_refl i, hik, h⟩

/-- The part of `callArguments` that moves: back to the statement start, forward to the call, and
both once more to come back. -/
def lookBack (p call left : Nat) (select : List Nat → List Nat) : Move (List Nat) := do
  let saved ← Move.mark
  Move.rewind p
  let origins ← Move.originsTo call left (Move.sources (← Move.requireSimulation))
  Move.restore saved
  return select origins

theorem mark_eq (c : Cursor) :
    Move.mark c = .ok ⟨c.current.offset, c.started, c.simulation.map (·.statementStart)⟩ c := rfl

/-- Coming back to an instruction is a rewind and a move forward. -/
theorem restore_eq {c : Cursor} {t : Simulation} (hs : c.simulation = some t) (offset p : Nat) :
    Move.restore ⟨offset, true, some p⟩ c
      = (Move.rewind p >>= fun _ => Move.forwardTo offset c.instructionBound) c := by
  simp only [Move.restore, EStateM.bind_apply, EStateM.get_apply, hs]
  rfl

theorem tracked_restore {j k p : Nat} {c : Cursor} (offset : Nat) (h : r.Tracks k c)
    (hre : r.Reentry j p) (hjk : j ≤ k) (hstart : (r.sim k).statementStart = p) :
    r.Tracked 0 ((Move.restore ⟨offset, true, some p⟩).after c) := by
  obtain ⟨d, hd, htd⟩ := h.rewind hre hjk hstart
  obtain ⟨t, ht, -⟩ := h
  obtain ⟨m, -, htm, -⟩ := tracked_forwardTo offset c.instructionBound htd
  have heq : (Move.restore ⟨offset, true, some p⟩).after c
      = (Move.forwardTo offset c.instructionBound).after d := by
    rw [Move.after, restore_eq ht.carries.simulation, Move.after]
    simp only [EStateM.bind_apply, hd]
  rw [heq]
  exact ⟨m, Nat.zero_le m, htm⟩

theorem tracked_lookBack {k left : Nat} {select : List Nat → List Nat} {c : Cursor} {t : Simulation}
    (ht : r.Follows (fun _ => False) k c t) (hstart : t.statementStart = (r.sim k).statementStart)
    (hstarted : c.started = true) :
    r.Tracked 0 ((lookBack t.statementStart c.current.offset left select).after c) := by
  have htracks : r.Tracks k c := ⟨t, ht, hstart⟩
  obtain ⟨j, hj, hre⟩ := exists_reentry (ht.same.started ▸ hstarted)
  rw [← hstart] at hre
  -- Each step of the look back is followed on the walk; only the last one comes back.
  obtain ⟨d, hd, htd⟩ := htracks.rewind hre hj hstart.symm
  obtain ⟨u, hu, -⟩ := id htd
  obtain ⟨m, hjm, hmk, htm⟩ := tracked_originsTo left (Move.sources u) htd hj
  -- Between the statement start and the call no other statement starts.
  have hstartm : (r.sim m).statementStart = t.statementStart := by
    have hlo := statementStart_mono (r := r) hjm
    have hhi := statementStart_mono (r := r) hmk
    rw [hre.statementStart] at hlo
    omega
  rw [lookBack, Move.after_bind, mark_eq]
  dsimp only
  rw [Move.after_bind, hd]
  dsimp only
  rw [Move.after_bind, requireSimulation_eq hu.carries.simulation]
  dsimp only
  rw [Move.after_bind, ht.offset]
  rw [Move.after] at htm
  cases horigins : Move.originsTo (r.place k) left (Move.sources u) d with
  | error f e =>
    rw [horigins] at htm
    exact ⟨m, Nat.zero_le m, htm⟩
  | ok origins e =>
    rw [horigins] at htm
    dsimp only
    rw [Move.after_bind_still _ fun _ _ => rfl, hstarted, ht.carries.simulation, Option.map_some]
    exact tracked_restore (r.place k) htm hre hjm hstartm

/-- Looking for arguments either fails where the cursor stands, or the cursor stands on a call and
looks back. -/
theorem callArguments_cases {c : Cursor} {t : Simulation} (hs : c.simulation = some t) :
    Move.callArguments.after c = c
      ∨ (c.current.op.isCall = true ∧ ∃ select, Move.callArguments.after c
          = (lookBack t.statementStart c.current.offset c.instructionBound select).after c) := by
  rw [Move.callArguments, Move.after_bind, requireSimulation_eq hs]
  dsimp only
  rw [Move.after_bind]
  show Move.after _ c = c ∨ (_ ∧ ∃ select, Move.after _ c = _)
  cases hcall : c.current.op.isCall with
  | false => exact Or.inl rfl
  | true =>
    cases hcallee : Simulate.callee c.image c.current with
    | error f => exact Or.inl rfl
    | ok sig =>
      have hnot : ¬ (!true) = true := by decide
      rw [if_neg hnot, Move.after_bind]
      show Move.after (if t.depth < (Simulate.callPops c.current.op sig).1
          + (Simulate.callPops c.current.op sig).2 then _ else _) c = c
        ∨ _ ∧ ∃ select, Move.after (if t.depth < (Simulate.callPops c.current.op sig).1
          + (Simulate.callPops c.current.op sig).2 then _ else _) c = _
      by_cases hdepth : t.depth < (Simulate.callPops c.current.op sig).1
          + (Simulate.callPops c.current.op sig).2
      · rw [if_pos hdepth]
        exact Or.inl rfl
      · rw [if_neg hdepth]
        exact Or.inr ⟨rfl, _, rfl⟩

theorem tracked_callArguments {k : Nat} {c : Cursor} (h : r.Tracks k c) :
    r.Tracked 0 (Move.callArguments.after c) := by
  obtain ⟨t, ht, hstart⟩ := h
  rcases callArguments_cases ht.carries.simulation with heq | ⟨hcall, select, heq⟩
  · rw [heq]
    exact ⟨k, Nat.zero_le k, t, ht, hstart⟩
  · rw [heq]
    refine tracked_lookBack ht hstart ?_
    -- Before the first instruction there is no call.
    cases hstarted : c.started with
    | true => rfl
    | false =>
      obtain ⟨-, hblank, -⟩ := (r.position k).2 (ht.same.started ▸ hstarted)
      rw [ht.same.current, hblank] at hcall
      cases hcall

/-! ## All moves -/

/-- **One move.** Whatever the move and whether or not it fails, the cursor is on the walk
afterwards. -/
theorem tracked_perform {c : Cursor} (h : r.Tracked 0 c) (m : CursorMove) :
    r.Tracked 0 (m.perform c) := by
  obtain ⟨k, -, hk⟩ := h
  cases m with
  | next => exact ⟨k + 1, Nat.zero_le _, hk.next.2⟩
  | reset => exact ⟨0, Nat.le_refl 0, tracks_reset hk⟩
  | goTo place => exact tracked_goTo hk place
  | backToStatement => exact tracked_backToStatement hk
  | statements limit => exact tracked_statements hk limit
  | callArguments => exact tracked_callArguments hk

/-- **All moves**, by induction. -/
theorem tracked_performAll (moves : List CursorMove) : ∀ {c : Cursor}, r.Tracked 0 c →
    r.Tracked 0 (CursorMove.performAll moves c) := by
  induction moves with
  | nil => exact id
  | cons m moves ih =>
    intro c h
    exact ih (tracked_perform h m)

/-- What a simulation is set up for. -/
def ofCursor (c : Cursor) (args locals : List TypeSig) : Route :=
  ⟨c.image, c.code, c.handlers, args, locals⟩

theorem tracks_trackStack {c d : Cursor} {args locals : List TypeSig} {maxStack : Int}
    (h : Move.trackStack args locals maxStack c = .ok () d) :
    (ofCursor c args locals).Tracks 0 d := by
  -- Whatever the cursor did before, it is put back to the start.
  have hd : d = { c with simulation := some (.start args locals) }.reset := by
    by_cases hmax : maxStack < 0
    · simp only [Move.trackStack, EStateM.bind_apply, hmax, if_true] at h
      cases h
    · simp only [Move.trackStack, bind, hmax, if_false] at h
      exact (EStateM.Result.ok.inj h).2.symm
  rw [hd]
  exact ⟨_, follows_reset ⟨rfl, rfl, rfl, rfl, rfl, rfl⟩, rfl⟩

/-- The first point of the walk at which it stands on the instruction at an offset. -/
structure FirstAt (r : Route) (offset k : Nat) : Prop where
  landed : r.Landed k
  place_eq : r.place k = offset
  first : ∀ j, j < k → ¬ (r.Landed j ∧ r.place j = offset)

theorem Landed.firstAt {k : Nat} (h : r.Landed k) : r.FirstAt (r.place k) k := by
  refine ⟨h, rfl, fun j hj hboth => ?_⟩
  have heq := place_injective hboth.1 h hboth.2
  omega

/-- The cursor shows the instruction and the stack that the walk shows when it first comes to the
cursor's place. -/
def Shows (r : Route) (c : Cursor) : Prop :=
  ∃ k, r.FirstAt c.current.offset k ∧ c.current = (r.cursor k).current
    ∧ c.stack = (r.cursor k).stack

theorem Tracks.shows {k : Nat} {c : Cursor} (h : r.Tracks k c) (hon : c.OnInstruction) :
    r.Shows c := by
  have hland := h.onInstruction.mp hon
  obtain ⟨t, ht, -⟩ := h
  refine ⟨k, ?_, ht.same.current, ?_⟩
  · rw [ht.same.current]
    exact hland.firstAt
  · have hw := r.carries_cursor k
    rw [Cursor.stack, Cursor.stack, ht.carries.simulation, hw.simulation]
    exact congrArg List.reverse ht.matched.slots

end Route

/-- **Path independence.** Start a simulation on any cursor and make any moves, each failing or
not. Whenever the cursor then stands on an instruction, it shows what the plain walk shows there;
and a move to a place succeeds if and only if the walk comes to an instruction there, and then
leaves the cursor on that instruction. -/
theorem moves_follow_walk {c start : Cursor} {args locals : List TypeSig} {maxStack : Int}
    (htrack : Move.trackStack args locals maxStack c = .ok () start) (moves : List CursorMove) :
    ((CursorMove.performAll moves start).OnInstruction →
        (Route.ofCursor c args locals).Shows (CursorMove.performAll moves start))
      ∧ (∀ place : Int, (∃ d, Move.goTo place (CursorMove.performAll moves start) = .ok () d)
          ↔ ∃ k, (Route.ofCursor c args locals).Landed k
            ∧ ((Route.ofCursor c args locals).place k : Int) = place)
      ∧ ∀ (place : Int) (d : Cursor),
          Move.goTo place (CursorMove.performAll moves start) = .ok () d →
            d.OnInstruction ∧ (d.current.offset : Int) = place
              ∧ (Route.ofCursor c args locals).Shows d := by
  obtain ⟨k, -, hk⟩ := Route.tracked_performAll moves
    ⟨0, Nat.le_refl 0, Route.tracks_trackStack htrack⟩
  refine ⟨hk.shows, fun place => ⟨fun ⟨d, hd⟩ => ?_, fun ⟨m, hm, hplace⟩ => ?_⟩,
    fun place d hd => ?_⟩
  · obtain ⟨m, hm, hplace, -⟩ := Route.landed_of_goTo hk hd
    exact ⟨m, hm, hplace⟩
  · rw [← hplace]
    exact Route.goTo_of_landed hk hm
  · obtain ⟨m, hm, hplace, htracks⟩ := Route.landed_of_goTo hk hd
    have hon := htracks.onInstruction.mpr hm
    exact ⟨hon, by rw [htracks.offset, hplace], htracks.shows hon⟩

/-- Three instructions: a constant is pushed and popped again. -/
def pushPop : List UInt8 := [0x16, 0x26, 0x2A]

theorem moves_follow_walk_pushPop :
    ∃ start d : Cursor, Move.trackStack [] [] 8 (Cursor.start none pushPop) = .ok () start
      ∧ Move.goTo 1 (CursorMove.performAll [.next, .next, .callArguments, .reset] start)
        = .ok () d
      ∧ (d.current.offset : Int) = 1 := by
  have htrack : Move.trackStack [] [] 8 (Cursor.start none pushPop)
      = .ok () (Route.start ⟨none, pushPop, [], [], []⟩) := rfl
  have hwalk := moves_follow_walk htrack [.next, .next, .callArguments, .reset]
  obtain ⟨d, hd⟩ := (hwalk.2.1 1).mpr ⟨2, ⟨rfl, rfl, rfl⟩, rfl⟩
  obtain ⟨-, hoffset, -⟩ := hwalk.2.2 1 d hd
  exact ⟨_, d, htrack, hd, hoffset⟩

end ManagedImage
