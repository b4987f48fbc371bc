/-
The places that are jumped to.

They are collected by a sweep of the code, which goes over the instructions that a walk
without a simulation visits (`walk_eq_sweep`). The places are put in order and repetitions
erased, so they grow strictly, and the search by halves finds exactly them (`isTarget_iff`).

From then on every move leaves the places alone and keeps the mark of the current instruction
right. `KeepsTargets` says this of a move that may fail half-way. It goes through sequences
and branches, so a move has it because its parts have.
-/
import ManagedImage.Proofs.Code.Observation
import ManagedImage.Proofs.Code.LongForms
import ManagedImage.Proofs.Metadata.Search

set_option autoImplicit false

namespace ManagedImage

/-! ## The walk and the sweep -/

/-- **A walk without a simulation is a sweep.** It visits the same instructions and is stopped by
the same fault, and without one it comes to the end. -/
theorem Cursor.walk_eq_sweep (left : Nat) : ∀ {c : Cursor}, c.Plain →
    c.code.length - c.nextOffset < left →
      (c.walk (·.current) left).1 = (Instruction.sweep c.code c.nextOffset).1
        ∧ (c.walk (·.current) left).2.fault = (Instruction.sweep c.code c.nextOffset).2
        ∧ (c.walk (·.current) left).2.ended
          = (Instruction.sweep c.code c.nextOffset).2.isNone := by
  induction left with
  | zero =>
    intro c _ hleft
    exact absurd hleft (Nat.not_lt_zero _)
  | succ left ih =>
    intro c hc hleft
    rw [walk, hc.next, Instruction.sweep]
    by_cases hend : c.code.length ≤ c.nextOffset
    · rw [if_pos hend, if_neg (Nat.not_lt.mpr hend)]
      exact ⟨rfl, hc.fault, rfl⟩
    · rw [if_neg hend, if_pos (Nat.not_le.mp hend)]
      cases hdecode : Instruction.decode c.code c.nextOffset with
      | error f => exact ⟨rfl, rfl, hc.ended⟩
      | ok i =>
        obtain ⟨-, hlt, -⟩ := Instruction.decode_ok hdecode
        have hshorter : c.code.length - i.next < left := by omega
        obtain ⟨hvisited, hstop⟩ := ih (hc.arrive i) hshorter
        simp only [hlt, dite_true]
        exact ⟨congrArg (i :: ·) hvisited, hstop⟩

/-! ## Places in order -/

section Order

variable {t : Int}

theorem eraseRepsBy_loop {α : Type} (r : α → α → Bool) (as : List α) : ∀ (a : α) (acc : List α),
    List.eraseRepsBy.loop r a as acc = acc.reverse ++ (a :: as).eraseRepsBy r := by
  induction as with
  | nil =>
    intro a acc
    simp [List.eraseRepsBy, List.eraseRepsBy.loop]
  | cons b as ih =>
    intro a acc
    rw [List.eraseRepsBy, List.eraseRepsBy.loop, List.eraseRepsBy.loop]
    cases r a b with
    | true => simp [ih]
    | false => simp [ih]

theorem eraseReps_cons_cons (a b : Int) (as : List Int) :
    (a :: b :: as).eraseReps
      = if a = b then (b :: as).eraseReps else a :: (b :: as).eraseReps := by
  simp only [List.eraseReps]
  rw [List.eraseRepsBy, List.eraseRepsBy.loop]
  by_cases h : a = b
  · rw [if_pos h, beq_iff_eq.mpr h, h]
    rfl
  · rw [if_neg h, beq_eq_false_iff_ne.mpr h]
    exact eraseRepsBy_loop _ as b [a]

theorem mem_eraseReps : ∀ {l : List Int}, t ∈ l.eraseReps ↔ t ∈ l
  | [] => Iff.rfl
  | [a] => Iff.rfl
  | a :: b :: as => by
    have ih : t ∈ (b :: as).eraseReps ↔ t ∈ b :: as := mem_eraseReps
    rw [eraseReps_cons_cons]
    by_cases h : a = b
    · rw [if_pos h, ih, h]
      simp
    · rw [if_neg h, List.mem_cons, ih, List.mem_cons (b := a)]

/-- Places in order, without repetitions, grow strictly. -/
theorem pairwise_eraseReps : ∀ {l : List Int}, l.Pairwise (· ≤ ·) → l.eraseReps.Pairwise (· < ·)
  | [], _ => List.Pairwise.nil
  | [a], _ => List.pairwise_singleton _ _
  | a :: b :: as, h => by
    obtain ⟨hle, htail⟩ := List.pairwise_cons.mp h
    have ih := pairwise_eraseReps htail
    rw [eraseReps_cons_cons]
    by_cases heq : a = b
    · rwa [if_pos heq]
    · rw [if_neg heq]
      refine List.pairwise_cons.mpr ⟨?_, ih⟩
      intro u hu
      have hab := hle b List.mem_cons_self
      have hbu : b ≤ u := by
        rcases List.mem_cons.mp (mem_eraseReps.mp hu) with rfl | hu
        · exact le_refl _
        · exact (List.pairwise_cons.mp htail).1 u hu
      omega

/-- The search by halves finds what is there, in places that grow. -/
theorem Cursor.isTarget_iff {c : Cursor} {ts : List Int} (h : c.targets = some ts)
    (hts : ts.Pairwise (· < ·)) : c.isTarget t = true ↔ t ∈ ts := by
  rw [isTarget, h]
  simp only [Option.getD_some, decide_eq_true_eq]
  constructor
  · intro hfound
    exact List.mem_of_getElem? hfound
  · intro hmem
    obtain ⟨k, hk, rfl⟩ := List.getElem_of_mem hmem
    set p : Nat → Bool := fun j => decide (ts[k] ≤ ts.getD j ts[k]) with hp
    have hiff : ∀ j (hj : j < ts.length), p j = true ↔ ts[k] ≤ ts[j] := by
      intro j hj
      simp [hp, hj]
    have hmono : ∀ i j, i ≤ j → j < ts.length → p i = true → p j = true := by
      intro i j hij hj hi
      rw [hiff i (by omega)] at hi
      exact (hiff j hj).mpr (hi.trans (hts.sortedLT.getElem_le_getElem_iff.mpr hij))
    -- The search stops at the place itself: not after it, and nothing before is as great.
    have hle : Table.lowerBound p 0 ts.length ≤ k := by
      by_contra hlt
      have hnot := Table.lowerBound_lt hmono (Nat.zero_le k) (by omega)
      rw [(hiff k hk).mpr (le_refl _)] at hnot
      cases hnot
    have hin : Table.lowerBound p 0 ts.length < ts.length := by omega
    have hge := (hiff _ hin).mp (Table.lowerBound_holds hin)
    rw [List.getElem?_eq_getElem hin]
    exact congrArg some (le_antisymm (hts.sortedLT.getElem_le_getElem_iff.mpr hle) hge)

end Order

/-! ## Collecting -/

/-- The instruction leads to a place: as a jump, or by an entry of its jump table. -/
def Instruction.JumpsTo (i : Instruction) (place : Int) : Prop :=
  i.operand = .target place ∨ ∃ ts, i.operand = .targets ts ∧ place ∈ ts

/-- The places that some instructions lead to, in order. -/
def Instruction.jumpTargets (is : List Instruction) : List Int :=
  (is.flatMap fun i => i.operand.places).mergeSort.eraseReps

section Collecting

variable {is : List Instruction} {place : Int}

theorem mem_places_iff (i : Instruction) : place ∈ i.operand.places ↔ i.JumpsTo place := by
  rw [Instruction.JumpsTo]
  cases i.operand with
  | target t => simp [Operand.places, eq_comm]
  | targets ts => simp [Operand.places]
  | _ => simp [Operand.places]

theorem mem_jumpTargets : place ∈ Instruction.jumpTargets is ↔ ∃ i ∈ is, i.JumpsTo place := by
  rw [Instruction.jumpTargets, mem_eraseReps, List.mem_mergeSort, List.mem_flatMap]
  simp only [mem_places_iff]

theorem pairwise_jumpTargets : (Instruction.jumpTargets is).Pairwise (· < ·) :=
  pairwise_eraseReps (List.pairwise_mergeSort' (· ≤ ·) _)

end Collecting

/-! ## Moves leave the places alone -/

/-- Code and targets are the same as before, and the mark of a jump target is right if it was. -/
structure Cursor.Keeps (c d : Cursor) : Prop where
  code : d.code = c.code
  targets : d.targets = c.targets
  marked : c.Marked → d.Marked

namespace Cursor

variable {c d e : Cursor}

theorem Keeps.refl (c : Cursor) : c.Keeps c := ⟨rfl, rfl, id⟩

theorem Keeps.trans (h : c.Keeps d) (h' : d.Keeps e) : c.Keeps e :=
  ⟨h'.code.trans h.code, h'.targets.trans h.targets, h'.marked ∘ h.marked⟩

/-- The places have not been collected, or they are those of the code and the mark is right. -/
def Collected (c : Cursor) : Prop :=
  c.targets = none ∨ ∃ is, Instruction.sweep c.code 0 = (is, none)
    ∧ c.targets = some (Instruction.jumpTargets is) ∧ c.Marked

theorem Keeps.collected (h : c.Keeps d) (hc : c.Collected) : d.Collected := by
  rcases hc with hnew | ⟨is, hsweep, hts, hmarked⟩
  · left
    rw [h.targets, hnew]
  · right
    rw [← h.code] at hsweep
    rw [← h.targets] at hts
    exact ⟨is, hsweep, hts, h.marked hmarked⟩

theorem keeps_reset (c : Cursor) : c.Keeps c.reset := ⟨rfl, rfl, fun _ => marked_of_not_started rfl⟩

theorem keeps_settle (c : Cursor) : c.Keeps c.settle := by
  rw [settle]
  cases c.simulation with
  | none => exact Keeps.refl c
  | some s =>
    dsimp only
    by_cases hstarted : (!c.started) = true
    · rw [if_pos hstarted]
      exact Keeps.refl c
    · rw [if_neg hstarted]
      cases Simulate.run c.image c.current s with
      | ok _ s' => exact ⟨rfl, rfl, id⟩
      | error f s' => exact ⟨rfl, rfl, id⟩

/-- A move forward that stays keeps the mark, and one that arrives makes it anew. -/
theorem keeps_next (c : Cursor) : c.Keeps c.next.2 := by
  rw [next]
  by_cases hstopped : (c.fault.isSome || c.ended) = true
  · rw [if_pos hstopped]
    exact Keeps.refl c
  rw [if_neg hstopped]
  apply (keeps_settle c).trans
  by_cases hfault : c.settle.fault.isSome = true
  · rw [if_pos hfault]
    exact Keeps.refl _
  rw [if_neg hfault]
  by_cases hend : c.settle.code.length ≤ c.settle.nextOffset
  · rw [if_pos hend]
    exact ⟨rfl, rfl, id⟩
  rw [if_neg hend]
  cases Instruction.decode c.settle.code c.settle.nextOffset with
  | error f => exact ⟨rfl, rfl, id⟩
  | ok i => exact ⟨rfl, rfl, fun _ => marked_arrive _ i⟩

end Cursor

/-! ## Collecting, once and again -/

namespace Move

/-- Collecting sweeps the code, and fails where the sweep is stopped. -/
theorem trackTargets_apply {c : Cursor} (h : c.targets = none) :
    Move.trackTargets c = match Instruction.sweep c.code 0 with
      | (is, none) => .ok () { c with targets := some (Instruction.jumpTargets is) }.reset
      | (_, some f) => .error f c := by
  have hnew : ¬ c.targets.isSome = true := by
    rw [h]
    decide
  rw [trackTargets, EStateM.bind_apply, EStateM.get_apply]
  dsimp only
  rw [if_neg hnew, Instruction.sweepAll]
  rcases Instruction.sweep c.code 0 with ⟨is, _ | f⟩
  · rfl
  · rfl

/-- Once there are places, collecting does nothing. -/
theorem trackTargets_of_some {c : Cursor} {ts : List Int} (h : c.targets = some ts) :
    Move.trackTargets c = .ok () c := by
  have hthere : c.targets.isSome = true := by
    rw [h]
    rfl
  rw [trackTargets, EStateM.bind_apply, EStateM.get_apply]
  dsimp only
  rw [if_pos hthere]
  rfl

/-- **Collecting ends with the places of the code**, whether they were there before or not, and
fails if and only if the sweep is stopped. -/
theorem trackTargets_spec {c : Cursor} (h : c.Collected) {is : List Instruction}
    {fault : Option Fault} (hsweep : Instruction.sweep c.code 0 = (is, fault)) :
    ((∃ d, trackTargets c = .ok () d) ↔ fault = none)
      ∧ ∀ d, trackTargets c = .ok () d →
          d.targets = some (Instruction.jumpTargets is) ∧ d.Marked := by
  rcases h with hnew | ⟨is', hsweep', hts, hmarked⟩
  · have htrack := trackTargets_apply hnew
    rw [hsweep] at htrack
    rw [htrack]
    cases fault with
    | none =>
      refine ⟨by simp, ?_⟩
      rintro _ ⟨⟩
      exact ⟨rfl, Cursor.marked_of_not_started rfl⟩
    | some f => simp
  · rw [hsweep] at hsweep'
    cases hsweep'
    rw [trackTargets_of_some hts]
    refine ⟨by simp, ?_⟩
    rintro _ ⟨⟩
    exact ⟨hts, hmarked⟩

theorem code_trackTargets (c : Cursor) : (trackTargets.after c).code = c.code := by
  rw [after]
  cases hts : c.targets with
  | some ts => rw [trackTargets_of_some hts]
  | none =>
    rw [trackTargets_apply hts]
    rcases Instruction.sweep c.code 0 with ⟨is, _ | f⟩ <;> rfl

theorem collected_trackTargets {c : Cursor} (h : c.Collected) :
    (trackTargets.after c).Collected := by
  rw [after]
  rcases h with hnew | ⟨is, hsweep, hts, hmarked⟩
  · rw [trackTargets_apply hnew]
    rcases hsweep : Instruction.sweep c.code 0 with ⟨is, _ | f⟩
    · exact .inr ⟨is, hsweep, rfl, Cursor.marked_of_not_started rfl⟩
    · exact .inl hnew
  · rw [trackTargets_of_some hts]
    exact .inr ⟨is, hsweep, hts, hmarked⟩

/-! ## Moves that may fail -/

/-- Whether the move fails or not, the targets are the same afterwards and the mark is right. -/
def KeepsTargets {α : Type} (x : Move α) : Prop := ∀ c : Cursor, c.Keeps (x.after c)

section Closure

variable {α β : Type}

theorem keepsTargets_pure (a : α) : KeepsTargets (pure a : Move α) := Cursor.Keeps.refl

theorem keepsTargets_throw (f : Fault) : KeepsTargets (throw f : Move α) := Cursor.Keeps.refl

theorem KeepsTargets.bind {x : Move α} {f : α → Move β} (hx : KeepsTargets x)
    (hf : ∀ a, KeepsTargets (f a)) : KeepsTargets (x >>= f) := by
  intro c
  have hc := hx c
  rw [after] at hc
  rw [after_bind]
  cases hrun : x c with
  | ok a d =>
    rw [hrun] at hc
    exact hc.trans (hf a d)
  | error f d =>
    rw [hrun] at hc
    exact hc

theorem KeepsTargets.ite {p : Prop} [Decidable p] {x y : Move α} (hx : KeepsTargets x)
    (hy : KeepsTargets y) : KeepsTargets (if p then x else y) := by
  by_cases h : p
  · rw [if_pos h]
    exact hx
  · rw [if_neg h]
    exact hy

theorem KeepsTargets.get {f : Cursor → Move α} (hf : ∀ c, KeepsTargets (f c)) :
    KeepsTargets ((MonadState.get : Move Cursor) >>= f) := fun c => hf c c

theorem KeepsTargets.modify {g : Cursor → Cursor} (hg : ∀ c : Cursor, c.Keeps (g c)) :
    KeepsTargets (modify g : Move Unit) := hg

theorem keepsTargets_ofExcept (e : Except Fault α) :
    KeepsTargets (MonadExcept.ofExcept e : Move α) := by
  cases e with
  | ok a => exact keepsTargets_pure a
  | error f => exact keepsTargets_throw f

end Closure

section Calls

variable {α : Type}

theorem keepsTargets_next : KeepsTargets next := Cursor.keeps_next

theorem keepsTargets_stopped (place : Int) : KeepsTargets (stopped place : Move α) := by
  apply KeepsTargets.get
  intro c
  cases c.fault with
  | some f => exact keepsTargets_throw f
  | none => exact keepsTargets_throw _

theorem keepsTargets_forwardTo (place : Int) (left : Nat) :
    KeepsTargets (forwardTo place left) := by
  induction left with
  | zero => exact keepsTargets_stopped place
  | succ left ih =>
    apply KeepsTargets.get
    intro c
    refine KeepsTargets.ite (keepsTargets_next.bind fun _ => ?_) (keepsTargets_pure _)
    exact KeepsTargets.ite ih (keepsTargets_stopped place)

theorem keepsTargets_toFirst (place : Int) : KeepsTargets (toFirst place) := by
  refine (KeepsTargets.modify Cursor.keeps_reset).bind fun _ => keepsTargets_next.bind fun _ => ?_
  exact KeepsTargets.ite (keepsTargets_pure _) (keepsTargets_stopped place)

theorem keepsTargets_rewind (place : Nat) : KeepsTargets (rewind place) := by
  refine KeepsTargets.bind (KeepsTargets.modify ?_) fun _ => keepsTargets_next.bind fun _ => ?_
  · intro c
    exact ⟨rfl, rfl, fun _ => Cursor.marked_of_not_started rfl⟩
  · exact KeepsTargets.ite (keepsTargets_pure _) (keepsTargets_stopped _)

/-- The mark is made for the place asked for, which is where the instruction stands. -/
theorem keepsTargets_decodeAt (place : Nat) : KeepsTargets (decodeAt place) := by
  intro c
  simp only [after, decodeAt, EStateM.bind_apply, EStateM.get_apply]
  cases hdecode : Instruction.decode c.code place with
  | error f => exact Cursor.Keeps.refl c
  | ok i =>
    refine ⟨rfl, rfl, fun _ _ => ?_⟩
    show c.isTarget place = c.isTarget i.offset
    rw [(Instruction.decode_ok hdecode).1]

theorem keepsTargets_goTo (place : Int) : KeepsTargets (goTo place) := by
  have harrive : KeepsTargets (Route.arriveAt place) :=
    KeepsTargets.get fun c => KeepsTargets.ite (keepsTargets_throw _) (keepsTargets_pure _)
  have hend : ∀ left, KeepsTargets (forwardTo place left >>= fun _ => Route.arriveAt place) :=
    fun left => (keepsTargets_forwardTo place left).bind fun _ => harrive
  apply KeepsTargets.get
  intro c
  refine KeepsTargets.ite ((keepsTargets_throw _).bind fun _ => ?_) ?_
  all_goals
    cases c.simulation with
    | none => exact keepsTargets_decodeAt place.toNat
    | some s =>
      -- Whichever way the cursor approaches, it goes forward from there.
      refine KeepsTargets.ite ((keepsTargets_rewind _).bind fun _ => hend _) ?_
      exact KeepsTargets.ite ((keepsTargets_toFirst place).bind fun _ => hend _) (hend _)

theorem keepsTargets_requireSimulation : KeepsTargets requireSimulation := by
  apply KeepsTargets.get
  intro c
  cases c.simulation with
  | some s => exact keepsTargets_pure s
  | none => exact keepsTargets_throw _

theorem keepsTargets_backToStatement : KeepsTargets backToStatement := by
  refine keepsTargets_requireSimulation.bind fun s => KeepsTargets.get fun c => ?_
  exact KeepsTargets.ite (keepsTargets_rewind _) (keepsTargets_pure _)

theorem keepsTargets_statementsAhead (left : Nat) : ∀ limit : Option Nat,
    KeepsTargets (statementsAhead left limit) := by
  induction left with
  | zero =>
    intro _
    exact keepsTargets_pure _
  | succ left ih =>
    intro limit
    rw [statementsAhead]
    refine KeepsTargets.ite (keepsTargets_pure _) (keepsTargets_next.bind fun moved => ?_)
    refine KeepsTargets.ite (KeepsTargets.get fun c => ?_) (KeepsTargets.get fun c => ?_)
    · cases c.fault with
      | none => exact keepsTargets_pure _
      | some f => exact keepsTargets_pure _
    · exact KeepsTargets.ite ((ih _).bind fun _ => keepsTargets_pure _) (ih _)

theorem keepsTargets_statements (limit : Option Nat) : KeepsTargets (statements limit) := by
  apply KeepsTargets.get
  intro c
  cases c.simulation with
  | none => exact keepsTargets_pure _
  | some s =>
    refine (KeepsTargets.modify Cursor.keeps_reset).bind fun _ => KeepsTargets.get fun c => ?_
    exact keepsTargets_statementsAhead _ limit

theorem keepsTargets_mark : KeepsTargets mark := KeepsTargets.get fun _ => keepsTargets_pure _

theorem keepsTargets_restore (m : Mark) : KeepsTargets (restore m) := by
  cases hstarted : m.started with
  | false =>
    intro c
    simp only [after, restore, hstarted, EStateM.bind_apply, EStateM.get_apply]
    exact Cursor.keeps_reset c
  | true =>
    refine KeepsTargets.get fun c => ?_
    rw [hstarted]
    cases m.statementStart with
    | none => exact keepsTargets_decodeAt m.offset
    | some first =>
      cases c.simulation with
      | none => exact keepsTargets_decodeAt m.offset
      | some s => exact (keepsTargets_rewind first).bind fun _ => keepsTargets_forwardTo _ _

theorem keepsTargets_originsTo (call left : Nat) : ∀ origins : List Nat,
    KeepsTargets (originsTo call left origins) := by
  induction left with
  | zero =>
    intro _
    exact keepsTargets_stopped _
  | succ left ih =>
    intro origins
    apply KeepsTargets.get
    intro c
    refine KeepsTargets.ite (keepsTargets_next.bind fun _ => ?_) (keepsTargets_pure _)
    refine KeepsTargets.ite (keepsTargets_requireSimulation.bind fun _ => ih _) ?_
    exact keepsTargets_stopped _

theorem keepsTargets_lookBack (p call left : Nat) (select : List Nat → List Nat) :
    KeepsTargets (Route.lookBack p call left select) := by
  refine keepsTargets_mark.bind fun saved => (keepsTargets_rewind p).bind fun _ => ?_
  refine keepsTargets_requireSimulation.bind fun s => ?_
  refine (keepsTargets_originsTo call left _).bind fun _ => ?_
  exact (keepsTargets_restore saved).bind fun _ => keepsTargets_pure _

theorem keepsTargets_callArguments : KeepsTargets callArguments := by
  refine keepsTargets_requireSimulation.bind fun s => KeepsTargets.get fun c => ?_
  -- Each check is a branch that throws, and behind the last one is the look back.
  refine KeepsTargets.ite ((keepsTargets_throw _).bind fun _ => ?_) ?_
  all_goals
    refine (keepsTargets_ofExcept _).bind fun sig => ?_
    refine KeepsTargets.ite ((keepsTargets_throw _).bind fun _ => ?_) ?_
    · exact keepsTargets_lookBack _ _ _ _
    · exact keepsTargets_lookBack _ _ _ _

theorem keepsTargets_trackStack (args locals : List TypeSig) (maxStack : Int) :
    KeepsTargets (trackStack args locals maxStack) := by
  have hstart : KeepsTargets
      (modify fun c => { c with simulation := some (.start args locals) }.reset : Move Unit) :=
    KeepsTargets.modify fun c => ⟨rfl, rfl, fun _ => Cursor.marked_of_not_started rfl⟩
  exact KeepsTargets.ite ((keepsTargets_throw _).bind fun _ => hstart) hstart

end Calls

end Move

/-- **Every call leaves the places alone** and keeps the mark of a jump target right, with a
simulation or without. -/
theorem CursorCall.keepsTargets_make (call : CursorCall) : Move.KeepsTargets call.make := by
  have hdone : Move.KeepsTargets (pure CursorAnswer.done) := Move.keepsTargets_pure _
  cases call with
  | mark => exact Move.keepsTargets_mark.bind fun _ => Move.keepsTargets_pure _
  | restore m => exact (Move.keepsTargets_restore m).bind fun _ => hdone
  | move m =>
    cases m with
    | next => exact Move.keepsTargets_next.bind fun _ => Move.keepsTargets_pure _
    | reset => exact (Move.KeepsTargets.modify Cursor.keeps_reset).bind fun _ => hdone
    | goTo place => exact (Move.keepsTargets_goTo place).bind fun _ => hdone
    | backToStatement => exact Move.keepsTargets_backToStatement.bind fun _ => hdone
    | statements limit =>
      exact (Move.keepsTargets_statements limit).bind fun _ => Move.keepsTargets_pure _
    | callArguments => exact Move.keepsTargets_callArguments.bind fun _ => Move.keepsTargets_pure _

end ManagedImage
