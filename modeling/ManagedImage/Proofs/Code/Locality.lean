/-
What running an instruction looks at.

The effect of an instruction reads the arguments, the local variables and the
stack, and nothing else of a simulation: not the stacks that jumps have left for
later places, not where the statement started. Two simulations that differ only
in these run alike, and this is what makes it possible to compare a replay with
the walk it repeats.

`Local` is that statement for any step of a simulation, together with the two
facts that every caller needs beside it: arguments and local variables stay as
they are, and a slot on the stack afterwards was there before or was left by the
instruction at hand. It is closed under sequencing, so `effect_local` is one
short line for each kind of effect; only `dup` is followed by hand, since the
slot it puts back is one it took.
-/
import ManagedImage.Code.Simulation
import ManagedImage.Proofs.Results

set_option autoImplicit false

namespace ManagedImage

/-- The simulation with the parts of `f` that no effect looks at. -/
def Simulation.withFrame (s f : Simulation) : Simulation :=
  { s with
    snapshots := f.snapshots
    dead := f.dead
    statementStart := f.statementStart
    reshaped := f.reshaped }

namespace Simulate

/-- The outcome of a step with its simulation changed. -/
def mapState {α : Type} (g : Simulation → Simulation) :
    EStateM.Result Fault Simulation α → EStateM.Result Fault Simulation α
  | .ok a s => .ok a (g s)
  | .error e s => .error e (g s)

/-- The simulation a step ends with, whether it fails or not. -/
def finalState {α : Type} : EStateM.Result Fault Simulation α → Simulation
  | .ok _ s => s
  | .error _ s => s

/-- A step that looks at nothing but arguments, local variables and the stack, and leaves on the
stack only slots that were there or that come from `place`. -/
structure Local {α : Type} (place : Nat) (x : Simulate α) : Prop where
  framed : ∀ s f : Simulation, x (s.withFrame f) = mapState (·.withFrame f) (x s)
  args : ∀ s : Simulation, (finalState (x s)).args = s.args
  locals : ∀ s : Simulation, (finalState (x s)).locals = s.locals
  slots : ∀ s : Simulation, ∀ v ∈ (finalState (x s)).slots, v ∈ s.slots ∨ v.source = place

section Closure

variable {α β : Type} {place : Nat}

/-- What a local step keeps, in one piece. -/
theorem Local.keeps {x : Simulate α} (hx : Local place x) (s : Simulation) :
    (finalState (x s)).args = s.args ∧ (finalState (x s)).locals = s.locals
      ∧ ∀ v ∈ (finalState (x s)).slots, v ∈ s.slots ∨ v.source = place :=
  ⟨hx.args s, hx.locals s, hx.slots s⟩

theorem Local.of_keeps {x : Simulate α}
    (hframed : ∀ s f : Simulation, x (s.withFrame f) = mapState (·.withFrame f) (x s))
    (hkeeps : ∀ s : Simulation,
      (finalState (x s)).args = s.args ∧ (finalState (x s)).locals = s.locals
        ∧ ∀ v ∈ (finalState (x s)).slots, v ∈ s.slots ∨ v.source = place) : Local place x :=
  ⟨hframed, fun s => (hkeeps s).1, fun s => (hkeeps s).2.1, fun s => (hkeeps s).2.2⟩

theorem Local.pure (a : α) : Local place (Pure.pure a : Simulate α) :=
  ⟨fun _ _ => rfl, fun _ => rfl, fun _ => rfl, fun _ _ h => Or.inl h⟩

theorem Local.throw (e : Fault) : Local place (throw e : Simulate α) :=
  ⟨fun _ _ => rfl, fun _ => rfl, fun _ => rfl, fun _ _ h => Or.inl h⟩

theorem Local.ofExcept (e : Except Fault α) :
    Local place (MonadExcept.ofExcept e : Simulate α) := by
  cases e with
  | ok a => exact Local.pure a
  | error f => exact Local.throw f

theorem Local.bind {x : Simulate α} {f : α → Simulate β} (hx : Local place x)
    (hf : ∀ a, Local place (f a)) : Local place (x >>= f) := by
  apply Local.of_keeps
  · intro s g
    have hframed := hx.framed s g
    simp only [EStateM.bind_apply, hframed]
    cases hs : x s with
    | ok a s' => exact (hf a).framed s' g
    | error e s' => rfl
  · intro s
    have hkeeps := hx.keeps s
    rw [EStateM.bind_apply]
    cases hs : x s with
    | error e s' =>
      rw [hs] at hkeeps
      exact hkeeps
    | ok a s' =>
      rw [hs] at hkeeps
      obtain ⟨hargs, hlocals, hslots⟩ := hkeeps
      obtain ⟨hargs', hlocals', hslots'⟩ := (hf a).keeps s'
      refine ⟨hargs'.trans hargs, hlocals'.trans hlocals, fun v hv => ?_⟩
      -- A slot from before the second step may still come from the first.
      rcases hslots' v hv with hmem | hplace
      · exact hslots v hmem
      · exact Or.inr hplace

/-- Reading the simulation is local if what follows does not depend on the frame. -/
theorem Local.get {f : Simulation → Simulate α} (hf : ∀ s, Local place (f s))
    (hframe : ∀ s g : Simulation, f (s.withFrame g) = f s) :
    Local place ((MonadState.get : Simulate Simulation) >>= f) := by
  refine ⟨fun s g => ?_, fun s => (hf s).args s, fun s => (hf s).locals s, fun s => (hf s).slots s⟩
  show f (s.withFrame g) (s.withFrame g) = mapState _ (f s s)
  rw [hframe s g]
  exact (hf s).framed s g

theorem Local.ite {c : Prop} [Decidable c] {x y : Simulate α} (hx : Local place x)
    (hy : Local place y) : Local place (if c then x else y) := by
  by_cases h : c
  · rw [if_pos h]
    exact hx
  · rw [if_neg h]
    exact hy

end Closure

/-! ## The steps of an effect -/

section Steps

variable {α : Type} {place : Nat} (i : Instruction)

theorem shapeFault_local (detail : String) :
    Local place (shapeFault i detail : Simulate α) := Local.throw _

theorem underflow_local (needed : Nat) : Local place (underflow i needed : Simulate α) :=
  Local.get (fun _ => shapeFault_local i _) (fun _ _ => rfl)

theorem pop_eq (n : Nat) (s : Simulation) :
    pop i n s = if s.depth < n then underflow i n s
      else .ok (s.slots.take n) { s with slots := s.slots.drop n, popped := s.popped + n } := by
  by_cases h : s.depth < n
  · simp only [pop, EStateM.bind_apply, EStateM.get_apply, h, if_true]
  · simp only [pop, EStateM.bind_apply, EStateM.get_apply, h, if_false, EStateM.set_apply,
      EStateM.pure_apply]

theorem pop_local (n : Nat) : Local place (pop i n) := by
  have hunder : Local place (underflow i n : Simulate (List Slot)) := underflow_local i n
  apply Local.of_keeps
  · intro s f
    rw [pop_eq, pop_eq, show (s.withFrame f).depth = s.depth from rfl]
    by_cases h : s.depth < n
    · rw [if_pos h, if_pos h]
      exact hunder.framed s f
    · rw [if_neg h, if_neg h]
      rfl
  · intro s
    rw [pop_eq]
    by_cases h : s.depth < n
    · rw [if_pos h]
      exact hunder.keeps s
    · rw [if_neg h]
      exact ⟨rfl, rfl, fun v hv => Or.inl (List.mem_of_mem_drop hv)⟩

theorem pop1_local : Local place (pop1 i) := by
  refine (pop_local i 1).bind fun taken => ?_
  split
  · exact Local.pure _
  · exact underflow_local i 1

theorem pop2_local : Local place (pop2 i) := by
  refine (pop_local i 2).bind fun taken => ?_
  split
  · exact Local.pure _
  · exact underflow_local i 2

theorem push_local (v : Operated) : Local i.offset (push i v) := by
  refine ⟨fun _ _ => rfl, fun _ => rfl, fun _ => rfl, fun s w hw => ?_⟩
  rcases List.mem_cons.mp hw with rfl | hmem
  · exact Or.inr rfl
  · exact Or.inl hmem

theorem variableType_local (types : List TypeSig) (what : String) :
    Local place (variableType i types what) := by
  rw [variableType]
  split
  · exact Local.pure _
  · exact shapeFault_local i _

theorem namedType_local (image : Option Image) : Local place (namedType image i) := by
  cases image with
  | none => exact Local.pure _
  | some img => exact (Local.ofExcept _).bind fun _ => Local.pure _

theorem fieldType_local (image : Option Image) : Local place (fieldType image i) := by
  cases image with
  | none => exact Local.pure _
  | some img => exact (Local.ofExcept _).bind fun _ => Local.pure _

theorem call_local (image : Option Image) : Local i.offset (call image i) := by
  refine (Local.ofExcept _).bind fun sig => (pop_local i _).bind fun _ => ?_
  refine Local.ite ?_ (Local.ite (push_local i _) (Local.pure _))
  cases image with
  | none => exact push_local i _
  | some img => exact (Local.ofExcept _).bind fun _ => push_local i _

/-- Taking the top of the stack and putting it back twice, the copy under a new place. -/
def duplicate : Simulate Unit := do
  let v ← pop1 i
  pushSlot v
  pushSlot { v with source := i.offset }

theorem duplicate_eq (s : Simulation) :
    duplicate i s = match s.slots with
      | [] => underflow i 1 s
      | v :: rest => .ok () { s with
          slots := { v with source := i.offset } :: v :: rest
          popped := s.popped + 1
          pushed := s.pushed + 1 + 1 } := by
  have hpop := pop_eq i 1 s
  cases hs : s.slots with
  | nil =>
    rw [Simulation.depth, hs, if_pos (by decide)] at hpop
    simp only [duplicate, pop1, EStateM.bind_apply, hpop]
    rfl
  | cons v rest =>
    rw [Simulation.depth, hs, if_neg (by simp)] at hpop
    simp only [duplicate, pop1, EStateM.bind_apply, hpop]
    rfl

/-- The slot that is put back is one that was there. -/
theorem duplicate_local : Local i.offset (duplicate i) := by
  have hunder : Local i.offset (underflow i 1 : Simulate Unit) := underflow_local i 1
  apply Local.of_keeps
  · intro s f
    rw [duplicate_eq, duplicate_eq, show (s.withFrame f).slots = s.slots from rfl]
    cases hs : s.slots with
    | nil => exact hunder.framed s f
    | cons v rest => rfl
  · intro s
    rw [duplicate_eq]
    cases hs : s.slots with
    | nil =>
      have hkeeps := hunder.keeps s
      rw [hs] at hkeeps
      exact hkeeps
    | cons v rest =>
      refine ⟨rfl, rfl, fun w hw => ?_⟩
      rcases List.mem_cons.mp hw with rfl | hmem
      · exact Or.inr rfl
      · exact Or.inl hmem

end Steps

/-! ## Effects and runs -/

/-- **The effect of an instruction is local**, whatever the instruction. -/
theorem effect_local (image : Option Image) (i : Instruction) :
    Local i.offset (effect image i) := by
  unfold effect
  cases i.op.effect with
  -- One case for each kind of effect: its steps are local, and so is their sequence.
  | nothing => exact Local.pure _
  | «variable» isArgument isAddress =>
    refine Local.get (fun s => Local.ite ?_ ?_) (fun _ _ => rfl)
    · exact (variableType_local i _ _).bind fun _ => push_local i _
    · exact (variableType_local i _ _).bind fun _ => push_local i _
  | replace pops result => exact (pop_local i _).bind fun _ => push_local i _
  | consume pops => exact (pop_local i _).bind fun _ => Local.pure _
  | duplicate => exact duplicate_local i
  | jump => exact Local.get (fun s => Local.ite (shapeFault_local i _) (Local.pure _)) fun _ _ => rfl
  | call => exact call_local i image
  | ret =>
    refine Local.get (fun s => Local.ite ?_ ?_) (fun _ _ => rfl)
    · exact (shapeFault_local i _).bind fun _ => (pop_local i _).bind fun _ => Local.pure _
    · exact (pop_local i _).bind fun _ => Local.pure _
  | clear =>
    exact Local.get (fun s => (pop_local i _).bind fun _ => Local.pure _) fun _ _ => rfl
  | endFilter =>
    refine Local.get (fun s => Local.ite ?_ ?_) (fun _ _ => rfl)
    · exact (shapeFault_local i _).bind fun _ => (pop_local i _).bind fun _ => Local.pure _
    · exact (pop_local i _).bind fun _ => Local.pure _
  | compare leavesAnswer =>
    have hanswer : Local i.offset (if leavesAnswer then push i (.ofPrimitive .i4) else pure ()) :=
      Local.ite (push_local i _) (Local.pure _)
    exact (pop2_local i).bind fun _ =>
      Local.ite ((shapeFault_local i _).bind fun _ => hanswer) hanswer
  | binary floats references =>
    refine (pop2_local i).bind fun ab => ?_
    dsimp only
    split
    · exact push_local i _
    · exact shapeFault_local i _
  | shift =>
    exact (pop2_local i).bind fun _ =>
      Local.ite ((shapeFault_local i _).bind fun _ => push_local i _) (push_local i _)
  | unary floats =>
    exact (pop1_local i).bind fun _ =>
      Local.ite ((shapeFault_local i _).bind fun _ => push_local i _) (push_local i _)
  | convert result =>
    exact (pop1_local i).bind fun _ =>
      Local.ite ((shapeFault_local i _).bind fun _ => push_local i _) (push_local i _)
  | loadObject => exact (pop1_local i).bind fun _ => push_local i _
  | loadElement => exact (pop2_local i).bind fun _ => push_local i _
  | field pops isAddress =>
    exact (pop_local i _).bind fun _ => (fieldType_local i image).bind fun _ => push_local i _
  | typed pops use =>
    exact (pop_local i _).bind fun _ => (namedType_local i image).bind fun _ => push_local i _
  | newArray =>
    -- Both branches of the length check end in the same push.
    have hrest : Local i.offset (do
        let t ← namedType image i
        push i (.object (t.map .szArray))) := (namedType_local i image).bind fun _ => push_local i _
    exact (pop1_local i).bind fun _ => Local.ite ((shapeFault_local i _).bind fun _ => hrest) hrest
  | methodPointer pops => exact (pop_local i _).bind fun _ => push_local i _

end Simulate

/-! ## Stacks left for later places -/

namespace Simulation

theorem keep_eq (source : Nat) (s : Simulation) (target : Int) :
    keep source s target = { s with snapshots := (keep source s target).snapshots } := by
  rw [keep]
  split
  · rfl
  · split <;> rfl

/-- A jump forward leaves the stack at its target, unless one was left there before. -/
theorem snapshot?_keep (source : Nat) (s : Simulation) (target : Int) (q : Nat) :
    (keep source s target).snapshot? q
      = (s.snapshot? q).or (if (source : Int) < target ∧ target = q then some s.slots else none) := by
  rw [keep]
  by_cases hle : target ≤ source
  · rw [if_pos hle, if_neg (fun h => by omega), Option.or_none]
  · rw [if_neg hle]
    -- The first stack that is left for a place stays.
    by_cases hsome : (s.snapshot? target.toNat).isSome
    · rw [if_pos hsome]
      by_cases hq : target = q
      · obtain ⟨slots, hslots⟩ := Option.isSome_iff_exists.mp hsome
        rw [hq, Int.toNat_natCast] at hslots
        rw [hslots, Option.some_or]
      · rw [if_neg (fun h => hq h.2), Option.or_none]
    · rw [if_neg hsome]
      by_cases hq : target = q
      · have hnone : s.snapshot? q = none := by
          rw [hq, Int.toNat_natCast] at hsome
          exact Option.not_isSome_iff_eq_none.mp hsome
        rw [hnone, if_pos ⟨by omega, hq⟩, Option.none_or, snapshot?, List.find?_cons_of_pos, hq]
        · rfl
        · rw [hq, Int.toNat_natCast, decide_eq_true_eq]
      · have hne : ¬ target.toNat = q := by omega
        rw [if_neg (fun h => hq h.2), Option.or_none, snapshot?, snapshot?, List.find?_cons_of_neg]
        rw [decide_eq_true_eq]
        exact hne

theorem foldl_keep_eq (source : Nat) (places : List Int) : ∀ s : Simulation,
    places.foldl (keep source) s
      = { s with snapshots := (places.foldl (keep source) s).snapshots } := by
  induction places with
  | nil => exact fun _ => rfl
  | cons place places ih =>
    intro s
    rw [List.foldl_cons, ih, keep_eq]

/-- The jumps of one instruction leave its stack at all their targets. -/
theorem snapshot?_foldl_keep (source : Nat) (places : List Int) (q : Nat) : ∀ s : Simulation,
    (places.foldl (keep source) s).snapshot? q
      = (s.snapshot? q).or (if source < q ∧ (q : Int) ∈ places then some s.slots else none) := by
  induction places with
  | nil =>
    intro s
    rw [List.foldl_nil, if_neg (fun h => List.not_mem_nil h.2), Option.or_none]
  | cons place places ih =>
    intro s
    have hslots : (keep source s place).slots = s.slots := by rw [keep_eq]
    rw [List.foldl_cons, ih, snapshot?_keep, hslots, Option.or_assoc]
    congr 1
    -- The jump at hand adds a stack for `q` only if it goes there, and later ones find it there.
    by_cases hsource : source < q
    · by_cases hplace : place = q
      · rw [if_pos ⟨by omega, hplace⟩, Option.some_or,
          if_pos ⟨hsource, by rw [hplace]; exact List.mem_cons_self ..⟩]
      · rw [if_neg (fun h => hplace h.2), Option.none_or]
        simp only [List.mem_cons, Ne.symm hplace, false_or]
    · rw [if_neg (fun h => by omega), if_neg (fun h => hsource h.1), if_neg (fun h => hsource h.1),
        Option.or_none]

end Simulation

namespace Simulate

/-- What an instruction that ran has done. -/
structure Ran (i : Instruction) (s s' : Simulation) : Prop where
  args : s'.args = s.args
  locals : s'.locals = s.locals
  statementStart : s'.statementStart = s.statementStart
  dead : s'.dead = (s.dead || endsFlow i.op)
  slots : ∀ v ∈ s'.slots, v ∈ s.slots ∨ v.source = i.offset
  snapshot : ∀ q, s'.snapshot? q
    = (s.snapshot? q).or (if i.offset < q ∧ (q : Int) ∈ i.operand.places then some s'.slots else none)

/-- What an effect leaves as it was, even of an instruction that fails. -/
structure Failed (s s' : Simulation) : Prop where
  args : s'.args = s.args
  locals : s'.locals = s.locals
  statementStart : s'.statementStart = s.statementStart
  dead : s'.dead = s.dead
  snapshots : s'.snapshots = s.snapshots

theorem normalize_offset (i : Instruction) : i.normalize.offset = i.offset := by
  rw [Instruction.normalize]
  split
  · rfl
  · split <;> rfl

/-- The simulation with its counters cleared, as every run starts. -/
def cleared (s : Simulation) : Simulation := { s with popped := 0, pushed := 0 }

/-- What is done after the effect: the jumps leave the stack at their targets. -/
def afterEffect (i : Instruction) (s : Simulation) : Simulation :=
  let s := i.operand.places.foldl (Simulation.keep i.offset) s
  { s with dead := s.dead || endsFlow i.op }

theorem run_eq (image : Option Image) (i : Instruction) (s : Simulation) :
    run image i s = match effect image i.normalize (cleared s) with
      | .ok _ s' => .ok () (afterEffect i s')
      | .error e s' => .error e s' := by
  simp only [run, EStateM.bind_apply, EStateM.modify_apply, cleared]
  split <;> simp_all only [afterEffect]

/-- A run that succeeds is an effect that succeeds, and the jumps after it. -/
theorem effect_of_run {image : Option Image} {i : Instruction} {s s' : Simulation}
    (h : run image i s = .ok () s') :
    ∃ t, effect image i.normalize (cleared s) = .ok () t ∧ s' = afterEffect i t := by
  rw [run_eq] at h
  cases heffect : effect image i.normalize (cleared s) with
  | error e t =>
    rw [heffect] at h
    cases h
  | ok _ t =>
    rw [heffect] at h
    exact ⟨t, rfl, (EStateM.Result.ok.inj h).2.symm⟩

/-- The frame after a local step is the frame before it. -/
theorem Local.frame_eq {α : Type} {place : Nat} {x : Simulate α} (hx : Local place x)
    (s : Simulation) : finalState (x s) = (finalState (x s)).withFrame s := by
  have hframed := hx.framed s s
  -- Framed with itself a simulation is what it was, so the step is framed for nothing.
  have hself : s.withFrame s = s := rfl
  rw [hself] at hframed
  cases hs : x s with
  | ok a s' =>
    rw [hs] at hframed
    exact (EStateM.Result.ok.inj hframed).2
  | error e s' =>
    rw [hs] at hframed
    exact (EStateM.Result.error.inj hframed).2

/-- **What an effect leaves as it was**, whether it succeeds or not: all but the stack. -/
theorem effect_failed (image : Option Image) (i : Instruction) (s : Simulation) :
    Failed s (finalState (effect image i.normalize (cleared s))) := by
  have hlocal := effect_local image i.normalize
  have hframe := hlocal.frame_eq (cleared s)
  refine ⟨hlocal.args (cleared s), hlocal.locals (cleared s), ?_, ?_, ?_⟩
  · rw [hframe]
    rfl
  · rw [hframe]
    rfl
  · rw [hframe]
    rfl

/-- **A run that succeeds** does what `Ran` says. -/
theorem ran_of_run {image : Option Image} {i : Instruction} {s s' : Simulation}
    (h : run image i s = .ok () s') : Ran i s s' := by
  have hfailed := effect_failed image i s
  have hslots := (effect_local image i.normalize).slots (cleared s)
  obtain ⟨t, heffect, hs'⟩ := effect_of_run h
  rw [heffect] at hfailed hslots
  rw [normalize_offset] at hslots
  rw [afterEffect, Simulation.foldl_keep_eq] at hs'
  subst hs'
  refine ⟨hfailed.args, hfailed.locals, hfailed.statementStart, ?_, hslots, fun q => ?_⟩
  · show (t.dead || endsFlow i.op) = (s.dead || endsFlow i.op)
    rw [show t.dead = s.dead from hfailed.dead]
  · -- The stacks that were kept are those from before the effect, which did not look at them.
    have hold : t.snapshot? q = s.snapshot? q := by
      rw [Simulation.snapshot?, Simulation.snapshot?,
        show t.snapshots = s.snapshots from hfailed.snapshots]
    rw [← hold]
    exact Simulation.snapshot?_foldl_keep i.offset i.operand.places q t

/-- **A run that fails** has only touched the stack. -/
theorem failed_of_run {image : Option Image} {i : Instruction} {e : Fault} {s s' : Simulation}
    (h : run image i s = .error e s') : Failed s s' := by
  have hfailed := effect_failed image i s
  rw [run_eq] at h
  cases heffect : effect image i.normalize (cleared s) with
  | ok _ t =>
    rw [heffect] at h
    cases h
  | error f t =>
    rw [heffect] at h hfailed
    rw [← (EStateM.Result.error.inj h).2]
    exact hfailed

/-- **Two simulations with the same variables and the same stack run alike**: both fail with the
same fault, or both go on, and their stacks are the same afterwards. -/
theorem run_alike (image : Option Image) (i : Instruction) {s t : Simulation}
    (hargs : t.args = s.args) (hlocals : t.locals = s.locals) (hslots : t.slots = s.slots) :
    (∃ s' t', run image i s = .ok () s' ∧ run image i t = .ok () t' ∧ t'.slots = s'.slots)
      ∨ ∃ e s' t', run image i s = .error e s' ∧ run image i t = .error e t'
          ∧ t'.slots = s'.slots := by
  -- The two differ in the frame only, and the effect does not look at it.
  have hcleared : cleared t = (cleared s).withFrame t := by
    simp only [cleared, Simulation.withFrame, hargs, hlocals, hslots]
  have hframed := (effect_local image i.normalize).framed (cleared s) t
  rw [← hcleared] at hframed
  have hruns := run_eq image i s
  have hrunt := run_eq image i t
  rw [hframed] at hrunt
  cases heffect : effect image i.normalize (cleared s) with
  | ok _ s' =>
    rw [heffect] at hruns hrunt
    refine Or.inl ⟨_, _, hruns, hrunt, ?_⟩
    rw [afterEffect, afterEffect, Simulation.foldl_keep_eq,
      Simulation.foldl_keep_eq i.offset i.operand.places s']
    rfl
  | error e s' =>
    rw [heffect] at hruns hrunt
    exact Or.inr ⟨e, _, _, hruns, hrunt, rfl⟩

end Simulate

end ManagedImage
