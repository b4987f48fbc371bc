/-
How many values an instruction takes and leaves.

These counts are stated twice. One is in the description of every operation, and the other
is in the way its effect pops and pushes; `Effect.counts?` reads them off the effect, and
`counts_normal` compares the two operation by operation. They agree but for operations that
empty the stack, whose description counts nothing, and for `ckfinite`, which takes a value
and leaves it again according to its description and does not look at the stack at all.

`Counted` is what an effect is known by. Where it succeeds, the values below those it took
are still there (`Exchanged`), and where there are too few values it fails with a fault of
the stack. Taking values first and leaving some afterwards is counted again, so
`effect_counted` is one short line for each kind of effect.
-/
import ManagedImage.Proofs.Code.Walk

set_option autoImplicit false

namespace ManagedImage

/-- What taking `p` values and leaving `k` does to a stack. Of the values that were taken some may
be left again; all others are new and come from `place`. -/
structure Simulation.Exchanged (place p k : Nat) (s s' : Simulation) : Prop where
  enough : p ≤ s.depth
  popped : s'.popped = s.popped + p
  pushed : s'.pushed = s.pushed + k
  slots : ∃ (fresh : List Slot) (q : Nat), q ≤ p ∧ fresh.length + (p - q) = k
    ∧ (∀ v ∈ fresh, v.source = place) ∧ s'.slots = fresh ++ s.slots.drop q

namespace Simulation

variable {place p k : Nat} {s s' s'' : Simulation}

/-- First values are taken, and then others are left. -/
theorem Exchanged.trans (h : s.Exchanged place p 0 s') (h' : s'.Exchanged place 0 k s'') :
    s.Exchanged place p k s'' := by
  obtain ⟨fresh, q, hq, hlength, hfresh, hslots⟩ := h.slots
  obtain ⟨fresh', q', hq', hlength', hfresh', hslots'⟩ := h'.slots
  obtain rfl : q' = 0 := by omega
  refine ⟨h.enough, ?_, ?_, fresh' ++ fresh, q, hq, ?_, ?_, ?_⟩
  · rw [h'.popped, h.popped, Nat.add_zero]
  · rw [h'.pushed, h.pushed, Nat.add_zero]
  · rw [List.length_append]
    omega
  · intro v hv
    rcases List.mem_append.mp hv with hv | hv
    · exact hfresh' v hv
    · exact hfresh v hv
  · rw [hslots', hslots, List.drop_zero, List.append_assoc]

theorem Exchanged.depth_eq (h : s.Exchanged place p k s') : s'.depth + p = s.depth + k := by
  obtain ⟨fresh, q, hq, hlength, -, hslots⟩ := h.slots
  have henough := h.enough
  rw [depth] at henough
  simp only [depth, hslots, List.length_append, List.length_drop]
  omega

/-- The values below those that were taken are where they were, and above them lie new ones and
ones that were taken. -/
theorem Exchanged.left_eq (h : s.Exchanged place p k s') :
    ∃ vs, vs.length = k ∧ (∀ v ∈ vs, v.source = place ∨ v ∈ s.slots.take p)
      ∧ s'.slots = vs ++ s.slots.drop p := by
  obtain ⟨fresh, q, hq, hlength, hfresh, hslots⟩ := h.slots
  have henough := h.enough
  rw [depth] at henough
  refine ⟨fresh ++ (s.slots.drop q).take (p - q), ?_, ?_, ?_⟩
  · rw [List.length_append, List.length_take, List.length_drop]
    omega
  · intro v hv
    rcases List.mem_append.mp hv with hv | hv
    · exact .inl (hfresh v hv)
    · right
      rw [List.take_drop, Nat.add_sub_cancel' hq] at hv
      exact List.mem_of_mem_drop hv
  · -- What was put back lies between the new values and the untouched ones.
    have hrest : s.slots.drop p = (s.slots.drop q).drop (p - q) := by
      rw [List.drop_drop, Nat.add_sub_cancel' hq]
    rw [hslots, List.append_assoc, hrest, List.take_append_drop]

/-- The values below those that were taken are where they were. -/
theorem Exchanged.drop_eq (h : s.Exchanged place p k s') :
    ∃ vs, vs.length = k ∧ s'.slots = vs ++ s.slots.drop p := by
  obtain ⟨vs, hlength, -, hslots⟩ := h.left_eq
  exact ⟨vs, hlength, hslots⟩

end Simulation

namespace Simulate

open Simulation

/-- A step that takes `p` values and leaves `k`, and that has a fault of the stack if there are
less than `p`. -/
structure Counted {α : Type} (place p k : Nat) (x : Simulate α) : Prop where
  ok : ∀ (s s' : Simulation) (a : α), x s = .ok a s' → s.Exchanged place p k s'
  short : ∀ s : Simulation, s.depth < p →
    ∃ (detail : String) (s' : Simulation), x s = .error (.stackShape place detail) s'

section Closure

variable {α β : Type} {place p k : Nat}

theorem Counted.pure (a : α) : Counted place 0 0 (Pure.pure a : Simulate α) := by
  constructor
  · intro s s' b h
    rw [← (EStateM.Result.ok.inj h).2]
    exact ⟨Nat.zero_le _, rfl, rfl, [], 0, Nat.le_refl 0, rfl, by simp, rfl⟩
  · intro s h
    exact absurd h (Nat.not_lt_zero _)

theorem Counted.bind {x : Simulate α} {f : α → Simulate β} (hx : Counted place p 0 x)
    (hf : ∀ a, Counted place 0 k (f a)) : Counted place p k (x >>= f) := by
  constructor
  · intro s s' b h
    obtain ⟨a, t, hxs, hfa⟩ := EStateM.bind_ok h
    exact (hx.ok s t a hxs).trans ((hf a).ok t s' b hfa)
  · intro s h
    obtain ⟨detail, s', hxs⟩ := hx.short s h
    refine ⟨detail, s', ?_⟩
    rw [EStateM.bind_apply, hxs]

theorem Counted.get {f : Simulation → Simulate α} (hf : ∀ s, Counted place p k (f s)) :
    Counted place p k ((MonadState.get : Simulate Simulation) >>= f) :=
  ⟨fun s s' a h => (hf s).ok s s' a h, fun s h => (hf s).short s h⟩

theorem Counted.ite {c : Prop} [Decidable c] {x y : Simulate α} (hx : Counted place p k x)
    (hy : Counted place p k y) : Counted place p k (if c then x else y) := by
  by_cases h : c
  · rw [if_pos h]
    exact hx
  · rw [if_neg h]
    exact hy

theorem Counted.ofExcept (e : Except Fault α) :
    Counted place 0 0 (MonadExcept.ofExcept e : Simulate α) := by
  cases e with
  | ok a => exact Counted.pure a
  | error f =>
    constructor
    · intro s s' a h
      cases h
    · intro s h
      exact absurd h (Nat.not_lt_zero _)

end Closure

/-! ## The steps of an effect -/

section Steps

variable {α β : Type} {p k : Nat} (i : Instruction)

/-- What always fails with a fault of the stack takes and leaves whatever is wanted. -/
theorem shapeFault_counted (detail : String) :
    Counted i.offset p k (shapeFault i detail : Simulate α) := by
  constructor
  · intro s s' a h
    cases h
  · intro s _
    exact ⟨detail, s, rfl⟩

theorem shapeFault_bind_counted (detail : String) (f : α → Simulate β) :
    Counted i.offset p k (shapeFault i detail >>= f) := by
  constructor
  · intro s s' a h
    cases h
  · intro s _
    exact ⟨detail, s, rfl⟩

theorem underflow_counted (needed : Nat) : Counted i.offset p k (underflow i needed : Simulate α) :=
  Counted.get fun _ => shapeFault_counted i _

theorem pop_counted (n : Nat) : Counted i.offset n 0 (pop i n) := by
  constructor
  · intro s s' vs h
    rw [pop_eq] at h
    by_cases hlt : s.depth < n
    · rw [if_pos hlt] at h
      exact (underflow_counted i n).ok s s' vs h
    · rw [if_neg hlt] at h
      rw [← (EStateM.Result.ok.inj h).2]
      exact ⟨Nat.le_of_not_lt hlt, rfl, rfl, [], n, Nat.le_refl n, by simp, by simp, rfl⟩
  · intro s hlt
    have hunder : Counted i.offset n 0 (underflow i n : Simulate (List Slot)) :=
      underflow_counted i n
    rw [pop_eq, if_pos hlt]
    exact hunder.short s hlt

theorem pop1_counted : Counted i.offset 1 0 (pop1 i) := by
  refine (pop_counted i 1).bind fun taken => ?_
  split
  · exact Counted.pure _
  · exact underflow_counted i 1

theorem pop2_counted : Counted i.offset 2 0 (pop2 i) := by
  refine (pop_counted i 2).bind fun taken => ?_
  split
  · exact Counted.pure _
  · exact underflow_counted i 2

theorem push_counted (v : Operated) : Counted i.offset 0 1 (push i v) := by
  constructor
  · intro s s' a h
    rw [← (EStateM.Result.ok.inj h).2]
    exact ⟨Nat.zero_le _, rfl, rfl, [.pushedAt v i.offset], 0, Nat.le_refl 0, rfl,
      by simp [Slot.pushedAt], rfl⟩
  · intro s h
    exact absurd h (Nat.not_lt_zero _)

theorem variableType_counted (types : List TypeSig) (what : String) :
    Counted i.offset 0 0 (variableType i types what) := by
  rw [variableType]
  split
  · exact Counted.pure _
  · exact shapeFault_counted i _

theorem namedType_counted (image : Option Image) : Counted i.offset 0 0 (namedType image i) := by
  cases image with
  | none => exact Counted.pure _
  | some img => exact (Counted.ofExcept _).bind fun _ => Counted.pure _

theorem fieldType_counted (image : Option Image) : Counted i.offset 0 0 (fieldType image i) := by
  cases image with
  | none => exact Counted.pure _
  | some img => exact (Counted.ofExcept _).bind fun _ => Counted.pure _

/-- The value that is put back was the top of the stack, and stays where it is. -/
theorem duplicate_counted : Counted i.offset 1 2 (duplicate i) := by
  constructor
  · intro s s' a h
    rw [duplicate_eq] at h
    cases hs : s.slots with
    | nil =>
      rw [hs] at h
      cases h
    | cons v rest =>
      rw [hs] at h
      rw [← (EStateM.Result.ok.inj h).2]
      refine ⟨?_, rfl, rfl, [{ v with source := i.offset }], 0, by omega, rfl, by simp, ?_⟩
      · rw [depth, hs, List.length_cons]
        omega
      · rw [hs]
        rfl
  · intro s h
    have hnil : s.slots = [] := List.eq_nil_of_length_eq_zero (by rw [depth] at h; omega)
    have hunder : Counted i.offset 1 2 (underflow i 1 : Simulate Unit) := underflow_counted i 1
    rw [duplicate_eq, hnil]
    exact hunder.short s h

end Steps

end Simulate

/-! ## Effects -/

/-- How many values an effect takes and leaves, where that does not depend on what is called or on
what is on the stack. -/
def Effect.counts? : Effect → Option (Nat × Nat)
  | .nothing | .jump => some (0, 0)
  | .variable _ _ => some (0, 1)
  | .replace pops _ | .field pops _ | .typed pops _ | .methodPointer pops => some (pops, 1)
  | .consume pops => some (pops, 0)
  | .duplicate => some (1, 2)
  | .endFilter => some (1, 0)
  | .compare leavesAnswer => some (2, if leavesAnswer then 1 else 0)
  | .binary _ _ | .shift | .loadElement => some (2, 1)
  | .unary _ | .convert _ | .loadObject | .newArray => some (1, 1)
  | .call | .ret | .clear => none

theorem Effect.leaves_le_one {e : Effect} {p k : Nat} (h : e.counts? = some (p, k)) :
    e ≠ .duplicate → k ≤ 1 := by
  intro hne
  cases e with
  | duplicate => exact absurd rfl hne
  | compare leavesAnswer =>
    cases leavesAnswer <;>
    · cases h
      decide
  | call | ret | clear => cases h
  | _ =>
    cases h
    decide

namespace Simulate

open Simulation

/-- **An effect takes and leaves what it counts**, and too few values are a fault of the stack. -/
theorem effect_counted (image : Option Image) {i : Instruction} {p k : Nat}
    (h : i.op.effect.counts? = some (p, k)) : Counted i.offset p k (effect image i) := by
  revert h
  unfold effect
  -- Each group takes its values, may check them, and leaves its result last.
  cases i.op.effect with
  | call | ret | clear => intro h; cases h
  | nothing =>
    rintro ⟨⟩
    exact Counted.pure _
  | «variable» isArgument isAddress =>
    rintro ⟨⟩
    refine Counted.get fun s => Counted.ite ?_ ?_
    · exact (variableType_counted i _ _).bind fun _ => push_counted i _
    · exact (variableType_counted i _ _).bind fun _ => push_counted i _
  | replace pops result =>
    rintro ⟨⟩
    exact (pop_counted i _).bind fun _ => push_counted i _
  | consume pops =>
    rintro ⟨⟩
    exact (pop_counted i _).bind fun _ => Counted.pure _
  | duplicate =>
    rintro ⟨⟩
    exact duplicate_counted i
  | jump =>
    rintro ⟨⟩
    exact Counted.get fun s => Counted.ite (shapeFault_counted i _) (Counted.pure _)
  | endFilter =>
    rintro ⟨⟩
    refine Counted.get fun s => Counted.ite (shapeFault_bind_counted i _ _) ?_
    exact (pop_counted i _).bind fun _ => Counted.pure _
  | compare leavesAnswer =>
    rintro ⟨⟩
    refine (pop2_counted i).bind fun ab => Counted.ite (shapeFault_bind_counted i _ _) ?_
    cases leavesAnswer with
    | true => exact push_counted i _
    | false => exact Counted.pure _
  | binary floats references =>
    rintro ⟨⟩
    refine (pop2_counted i).bind fun ab => ?_
    dsimp only
    split
    · exact push_counted i _
    · exact shapeFault_counted i _
  | shift =>
    rintro ⟨⟩
    exact (pop2_counted i).bind fun _ =>
      Counted.ite (shapeFault_bind_counted i _ _) (push_counted i _)
  | unary floats | convert result =>
    rintro ⟨⟩
    exact (pop1_counted i).bind fun _ =>
      Counted.ite (shapeFault_bind_counted i _ _) (push_counted i _)
  | loadObject =>
    rintro ⟨⟩
    exact (pop1_counted i).bind fun _ => push_counted i _
  | loadElement =>
    rintro ⟨⟩
    exact (pop2_counted i).bind fun _ => push_counted i _
  | field pops isAddress =>
    rintro ⟨⟩
    exact (pop_counted i _).bind fun _ =>
      (fieldType_counted i image).bind fun _ => push_counted i _
  | typed pops use =>
    rintro ⟨⟩
    exact (pop_counted i _).bind fun _ =>
      (namedType_counted i image).bind fun _ => push_counted i _
  | newArray =>
    rintro ⟨⟩
    exact (pop1_counted i).bind fun _ => Counted.ite (shapeFault_bind_counted i _ _)
      ((namedType_counted i image).bind fun _ => push_counted i _)
  | methodPointer pops =>
    rintro ⟨⟩
    exact (pop_counted i _).bind fun _ => push_counted i _

/-! ## Effects that depend on the call or on the stack -/

section Dependent

variable {image : Option Image} {i : Instruction} {s s' : Simulation}

/-- How many values a call takes. -/
def callTakes (op : Opcode) (sig : MethodSig) : Nat := (callPops op sig).1 + (callPops op sig).2

/-- How many values a call leaves: the object it made, or the result if there is one. -/
def callLeaves (op : Opcode) (sig : MethodSig) : Nat :=
  if op = .newobj then 1 else if sig.returnsVoid then 0 else 1

theorem callLeaves_le_one (op : Opcode) (sig : MethodSig) : callLeaves op sig ≤ 1 := by
  unfold callLeaves
  split
  · exact Nat.le_refl 1
  · split <;> decide

theorem call_exchanged (h : call image i s = .ok () s') :
    ∃ sig, callee image i = .ok sig
      ∧ s.Exchanged i.offset (callTakes i.op sig) (callLeaves i.op sig) s' := by
  unfold call at h
  obtain ⟨sig, t, hcallee, hrest⟩ := EStateM.bind_ok h
  have hfound : callee image i = .ok sig ∧ t = s := by
    cases hc : callee image i with
    | error f =>
      rw [hc] at hcallee
      cases hcallee
    | ok sig' =>
      rw [hc] at hcallee
      cases hcallee
      exact ⟨rfl, rfl⟩
  obtain ⟨hfound, rfl⟩ := hfound
  refine ⟨sig, hfound, Counted.ok ?_ _ _ _ hrest⟩
  refine (pop_counted i _).bind fun _ => ?_
  unfold callLeaves
  by_cases hnew : i.op = .newobj
  · rw [if_pos hnew, if_pos hnew]
    cases image with
    | none => exact push_counted i _
    | some img => exact (Counted.ofExcept _).bind fun _ => push_counted i _
  · rw [if_neg hnew, if_neg hnew]
    cases sig.returnsVoid with
    | true => exact Counted.pure _
    | false => exact push_counted i _

theorem effect_ret (hop : i.op.effect = .ret) (h : effect image i s = .ok () s') :
    s.depth ≤ 1 ∧ s.Exchanged i.offset s.depth 0 s' := by
  unfold effect at h
  rw [hop] at h
  obtain ⟨t, u, hget, h⟩ := EStateM.bind_ok h
  cases hget
  by_cases hlt : 1 < s.depth
  · rw [if_pos hlt] at h
    cases h
  · rw [if_neg hlt] at h
    refine ⟨Nat.le_of_not_lt hlt, Counted.ok ?_ _ _ _ h⟩
    exact (pop_counted i _).bind fun _ => Counted.pure _

theorem effect_clear (hop : i.op.effect = .clear) (h : effect image i s = .ok () s') :
    s.Exchanged i.offset s.depth 0 s' := by
  unfold effect at h
  rw [hop] at h
  obtain ⟨t, u, hget, h⟩ := EStateM.bind_ok h
  cases hget
  refine Counted.ok ?_ _ _ _ h
  exact (pop_counted i _).bind fun _ => Counted.pure _

theorem effect_call (hop : i.op.effect = .call) (h : effect image i s = .ok () s') :
    ∃ sig, callee image i = .ok sig
      ∧ s.Exchanged i.offset (callTakes i.op sig) (callLeaves i.op sig) s' := by
  unfold effect at h
  rw [hop] at h
  exact call_exchanged h

/-- **Whatever an effect does**, it takes some values off the stack and leaves some, and only where
a value is doubled more than one. -/
theorem effect_exchanged (h : effect image i s = .ok () s') :
    ∃ p k, s.Exchanged i.offset p k s' ∧ (i.op.effect ≠ .duplicate → k ≤ 1) := by
  cases hcounts : i.op.effect.counts? with
  | some counts =>
    obtain ⟨p, k⟩ := counts
    exact ⟨p, k, (effect_counted image hcounts).ok s s' () h, Effect.leaves_le_one hcounts⟩
  | none =>
    cases hop : i.op.effect with
    | call =>
      obtain ⟨sig, -, hexchanged⟩ := effect_call hop h
      exact ⟨_, _, hexchanged, fun _ => callLeaves_le_one i.op sig⟩
    | ret => exact ⟨_, _, (effect_ret hop h).2, fun _ => Nat.zero_le 1⟩
    | clear => exact ⟨_, _, effect_clear hop h, fun _ => Nat.zero_le 1⟩
    | _ =>
      rw [hop] at hcounts
      cases hcounts

end Dependent

end Simulate

/-! ## The description of an operation -/

namespace Opcode

/-- The operation that a short form stands for. -/
def normal (op : Opcode) : Opcode := (op.implied?.map (·.1)).getD (op.longForm?.getD op)

theorem op_normalize (i : Instruction) : i.normalize.op = i.op.normal := by
  rw [normal, Instruction.normalize]
  cases i.op.implied? with
  | some form => rfl
  | none => cases i.op.longForm? <;> rfl

/-- Operations that are described as taking and leaving nothing, but empty the stack. -/
def clears (op : Opcode) : Bool := op = .leave || op = .leaveS || op = .endfinally

/-- **Description and effect count alike**, but for operations that empty the stack and for
`ckfinite`. -/
theorem counts_normal {op : Opcode} {n : Nat} (h : op.info.pops = some n)
    (hclears : op.clears = false) (hne : op ≠ .ckfinite) :
    op.normal.effect.counts? = some (n, op.info.pushes) := by
  have hall : op.info.pops = none ∨ op.clears = true ∨ op = .ckfinite
      ∨ op.normal.effect.counts? = op.info.pops.map (·, op.info.pushes) := by
    cases op <;> decide
  rcases hall with hnone | htrue | heq | hcounts
  · rw [h] at hnone
    cases hnone
  · rw [hclears] at htrue
    cases htrue
  · exact absurd heq hne
  · rw [hcounts, h]
    rfl

theorem effect_normal_of_clears {op : Opcode} (h : op.clears = true) :
    op.normal.effect = .clear := by
  cases op <;> first | rfl | cases h

theorem pops_of_clears {op : Opcode} (h : op.clears = true) : op.info.pops = some 0 := by
  cases op <;> first | rfl | cases h

theorem normal_not_duplicate {op : Opcode} (h : op ≠ .dup) : op.normal.effect ≠ .duplicate := by
  have hall : op = .dup ∨ op.normal.effect.counts? ≠ some (1, 2) := by
    cases op <;> decide
  intro hdup
  rcases hall with hop | hne
  · exact h hop
  · rw [hdup] at hne
    exact hne rfl

/-- Whether an operation calls a method, if only the constructor of a new object. -/
def invokes (op : Opcode) : Bool := op = .call || op = .callvirt || op = .calli || op = .newobj

/-- A call has no short form. -/
theorem effect_of_invokes {op : Opcode} (h : op.invokes = true) :
    op.implied? = none ∧ op.longForm? = none ∧ op.effect = .call := by
  cases op <;> first | exact ⟨rfl, rfl, rfl⟩ | cases h

end Opcode

/-! ## Runs -/

namespace Simulate

open Simulation

section Runs

variable {image : Option Image} {i : Instruction} {s s' : Simulation}

/-- A run that succeeds has the stack and the counters of its effect. -/
theorem run_ok (h : run image i s = .ok () s') :
    ∃ t, effect image i.normalize (cleared s) = .ok () t ∧ s'.slots = t.slots
      ∧ s'.popped = t.popped ∧ s'.pushed = t.pushed := by
  obtain ⟨t, heffect, rfl⟩ := effect_of_run h
  refine ⟨t, heffect, ?_⟩
  rw [afterEffect, foldl_keep_eq]
  exact ⟨rfl, rfl, rfl⟩

/-- What an effect has exchanged is what the run has. -/
theorem exchanged_of_effect {p k : Nat} {t : Simulation}
    (h : (cleared s).Exchanged i.normalize.offset p k t) (hslots : s'.slots = t.slots)
    (hpopped : s'.popped = t.popped) (hpushed : s'.pushed = t.pushed) :
    (cleared s).Exchanged i.offset p k s' := by
  rw [normalize_offset] at h
  exact ⟨h.enough, hpopped.trans h.popped, hpushed.trans h.pushed, by rw [hslots]; exact h.slots⟩

/-- **Every run that succeeds** takes some values off the stack and leaves some, as many as its
counters say, and only where a value is doubled more than one. -/
theorem run_exchanged (h : run image i s = .ok () s') :
    (cleared s).Exchanged i.offset s'.popped s'.pushed s' ∧ (i.op ≠ .dup → s'.pushed ≤ 1) := by
  obtain ⟨t, heffect, hslots, hpopped, hpushed⟩ := run_ok h
  obtain ⟨p, k, hexchanged, hone⟩ := effect_exchanged heffect
  have hexchanged' := exchanged_of_effect hexchanged hslots hpopped hpushed
  have hp : s'.popped = p := hexchanged'.popped.trans (Nat.zero_add p)
  have hk : s'.pushed = k := hexchanged'.pushed.trans (Nat.zero_add k)
  rw [hp, hk]
  refine ⟨hexchanged', fun hne => hone ?_⟩
  rw [Opcode.op_normalize]
  exact Opcode.normal_not_duplicate hne

/-- Where the description fixes what is taken and the effect looks at it, both agree. -/
theorem run_counted {n : Nat} (h : run image i s = .ok () s') (hn : i.op.info.pops = some n)
    (hclears : i.op.clears = false) (hne : i.op ≠ .ckfinite) :
    (cleared s).Exchanged i.offset n i.op.info.pushes s' := by
  obtain ⟨t, heffect, hslots, hpopped, hpushed⟩ := run_ok h
  have hcounts : i.normalize.op.effect.counts? = some (n, i.op.info.pushes) := by
    rw [Opcode.op_normalize]
    exact Opcode.counts_normal hn hclears hne
  exact exchanged_of_effect ((effect_counted image hcounts).ok _ _ _ heffect) hslots hpopped hpushed

/-- Checking a number for being finite leaves the stack alone. -/
theorem run_ckfinite (h : run image i s = .ok () s') (hop : i.op = .ckfinite) :
    s'.slots = s.slots := by
  obtain ⟨t, heffect, hslots, -⟩ := run_ok h
  have hnothing : i.normalize.op.effect = .nothing := by
    rw [Opcode.op_normalize, hop]
    rfl
  unfold effect at heffect
  rw [hnothing] at heffect
  rw [hslots, ← (EStateM.Result.ok.inj heffect).2]
  rfl

theorem run_clears (h : run image i s = .ok () s') (hclears : i.op.clears = true) :
    s'.slots = [] := by
  obtain ⟨t, heffect, hslots, hpopped, hpushed⟩ := run_ok h
  have hop : i.normalize.op.effect = .clear := by
    rw [Opcode.op_normalize]
    exact Opcode.effect_normal_of_clears hclears
  obtain ⟨vs, hvs, hdrop⟩ := (effect_clear hop heffect).drop_eq
  rw [hslots, hdrop, List.eq_nil_of_length_eq_zero hvs, List.nil_append, depth, List.drop_length]

theorem run_ret (h : run image i s = .ok () s') (hop : i.op = .ret) :
    s.depth ≤ 1 ∧ s'.slots = [] := by
  obtain ⟨t, heffect, hslots, hpopped, hpushed⟩ := run_ok h
  have hret : i.normalize.op.effect = .ret := by
    rw [Opcode.op_normalize, hop]
    rfl
  obtain ⟨hdepth, hexchanged⟩ := effect_ret hret heffect
  obtain ⟨vs, hvs, hdrop⟩ := hexchanged.drop_eq
  refine ⟨hdepth, ?_⟩
  rw [hslots, hdrop, List.eq_nil_of_length_eq_zero hvs, List.nil_append, depth, List.drop_length]

theorem run_invokes (h : run image i s = .ok () s') (hop : i.op.invokes = true) :
    ∃ sig, callee image i = .ok sig
      ∧ (cleared s).Exchanged i.offset (callTakes i.op sig) (callLeaves i.op sig) s' := by
  obtain ⟨t, heffect, hslots, hpopped, hpushed⟩ := run_ok h
  obtain ⟨himplied, hlong, hcall⟩ := Opcode.effect_of_invokes hop
  have hsame : i.normalize = i := by rw [Instruction.normalize, himplied, hlong]
  have hcall' : i.normalize.op.effect = .call := by rw [hsame, hcall]
  obtain ⟨sig, hcallee, hexchanged⟩ := effect_call hcall' heffect
  have hexchanged' := exchanged_of_effect hexchanged hslots hpopped hpushed
  rw [hsame] at hcallee hexchanged'
  exact ⟨sig, hcallee, hexchanged'⟩

/-- **Interpreter and description agree, and the stack below is framed.** An instruction that runs
changes the number of values by what its description says, and leaves alone what lies below the
values it takes (the top of a stack comes first here). A call takes its arguments and what lies
above them, and leaves its result if it has one. What drops everything leaves an empty stack, and
so does a return, on which at most the result may be left. -/
theorem run_frames (h : run image i s = .ok () s') :
    (∀ n, i.op.info.pops = some n → i.op.clears = false →
        (s'.depth : Int) = s.depth - n + i.op.info.pushes ∧ ∃ vs, s'.slots = vs ++ s.slots.drop n)
      ∧ (i.op.invokes = true → ∃ sig, callee image i = .ok sig ∧ callTakes i.op sig ≤ s.depth
          ∧ ∃ vs, vs.length = callLeaves i.op sig
            ∧ s'.slots = vs ++ s.slots.drop (callTakes i.op sig))
      ∧ (i.op.clears = true → s'.slots = [])
      ∧ (i.op = .ret → s.depth ≤ 1 ∧ s'.slots = []) := by
  refine ⟨?_, ?_, run_clears h, run_ret h⟩
  · intro n hn hclears
    by_cases hne : i.op = .ckfinite
    · -- The description takes one value and leaves one, and on an empty stack that is nothing.
      have hslots := run_ckfinite h hne
      rw [hne] at hn ⊢
      obtain rfl := Option.some.inj hn
      refine ⟨?_, s.slots.take 1, ?_⟩
      · rw [depth, depth, hslots]
        show (s.slots.length : Int) = s.slots.length - (1 : Nat) + (1 : Nat)
        omega
      · rw [hslots, List.take_append_drop]
    · have hexchanged := run_counted h hn hclears hne
      obtain ⟨vs, -, hdrop⟩ := hexchanged.drop_eq
      have hdepth := hexchanged.depth_eq
      refine ⟨?_, vs, hdrop⟩
      have hcleared : (cleared s).depth = s.depth := rfl
      omega
  · intro hop
    obtain ⟨sig, hcallee, hexchanged⟩ := run_invokes h hop
    exact ⟨sig, hcallee, hexchanged.enough, hexchanged.drop_eq⟩

end Runs

/-- An addition on a stack of three: two values are taken, the sum is left, and the value below them
stays. Leaving a protected block afterwards drops both. -/
theorem run_frames_add :
    ∃ s s' s'' : Simulation, s.depth = 3 ∧ run none ⟨0, .add, 1, .none⟩ s = .ok () s'
      ∧ run none ⟨1, .leaveS, 2, .target 3⟩ s' = .ok () s''
      ∧ (s'.depth : Int) = 3 - 2 + 1 ∧ (∃ vs, s'.slots = vs ++ s.slots.drop 2) ∧ s''.slots = [] := by
  let v : Slot := .pushedAt (.ofPrimitive .i4) 0
  let s : Simulation := { Simulation.start [] [] with slots := [v, v, v] }
  obtain ⟨s', s'', hadd, hleave⟩ : ∃ s' s'', run none ⟨0, .add, 1, .none⟩ s = .ok () s'
      ∧ run none ⟨1, .leaveS, 2, .target 3⟩ s' = .ok () s'' := ⟨_, _, rfl, rfl⟩
  obtain ⟨hdepth, hframe⟩ := (run_frames hadd).1 2 rfl rfl
  exact ⟨s, s', s'', rfl, hadd, hleave, hdepth, hframe, (run_frames hleave).2.2.1 rfl⟩

end Simulate

/-! ## Too few values -/

namespace Simulate

/-- An instruction that is described as taking more values than there are has a fault of the
stack. -/
theorem run_underflows {image : Option Image} {i : Instruction} {s : Simulation} {n : Nat}
    (hn : i.op.info.pops = some n) (hne : i.op ≠ .ckfinite) (hshort : s.depth < n) :
    ∃ (detail : String) (s' : Simulation),
      run image i s = .error (.stackShape i.offset detail) s' := by
  have hclears : i.op.clears = false := by
    -- What empties the stack is described as taking nothing, and that is always there.
    cases hc : i.op.clears with
    | false => rfl
    | true =>
      have hzero : i.op.info.pops = some 0 := Opcode.pops_of_clears hc
      rw [hn] at hzero
      have hn0 := Option.some.inj hzero
      omega
  have hcounts : i.normalize.op.effect.counts? = some (n, i.op.info.pushes) := by
    rw [Opcode.op_normalize]
    exact Opcode.counts_normal hn hclears hne
  obtain ⟨detail, s', heffect⟩ := (effect_counted image hcounts).short (cleared s) hshort
  refine ⟨detail, s', ?_⟩
  rw [run_eq, heffect, normalize_offset]

end Simulate

namespace Cursor

section Underflow

variable {c : Cursor} {s : Simulation} {n : Nat}

/-- **Underflow is reported by every operation but one.** On a stack with fewer values than the
current instruction is described as taking, the next move stops with a fault of the stack. Only
`ckfinite` runs, and leaves the stack as it is. -/
theorem next_underflows (hs : c.simulation = some s) (hon : c.OnInstruction)
    (hn : c.current.op.info.pops = some n) (hshort : s.depth < n) :
    (c.current.op ≠ .ckfinite → ∃ (d : Cursor) (detail : String), c.next = (false, d)
        ∧ d.fault = some (.stackShape c.current.offset detail))
      ∧ (c.current.op = .ckfinite → ∃ s', c.settle = c.withSimulation s' ∧ s'.slots = s.slots) := by
  constructor
  · intro hne
    obtain ⟨detail, s', hrun⟩ := Simulate.run_underflows hn hne hshort
    exact ⟨_, detail, next_of_error hs hon.fault hon.ended hon.started hrun, rfl⟩
  · intro hop
    obtain ⟨s', hrun⟩ : ∃ s', Simulate.run c.image c.current s = .ok () s' := by
      have hnothing : c.current.normalize.op.effect = .nothing := by
        rw [Opcode.op_normalize, hop]
        rfl
      rw [Simulate.run_eq]
      unfold Simulate.effect
      rw [hnothing]
      exact ⟨_, rfl⟩
    exact ⟨s', settle_of_settled hs (.inr ⟨hon.started, hrun⟩), Simulate.run_ckfinite hrun hop⟩

end Underflow

/-- A value is popped of an empty stack. -/
theorem next_underflows_pop :
    ∃ start c d : Cursor, Move.trackStack [] [] 8 (Cursor.start none [0x26, 0x2A]) = .ok () start
      ∧ start.next = (true, c) ∧ c.next = (false, d)
      ∧ ∃ detail, d.fault = some (.stackShape 0 detail) := by
  obtain ⟨start, c, htrack, hnext, hon, hop⟩ : ∃ start c : Cursor,
      Move.trackStack [] [] 8 (Cursor.start none [0x26, 0x2A]) = .ok () start
        ∧ start.next = (true, c) ∧ c.OnInstruction ∧ c.current = ⟨0, .pop, 1, .none⟩
          ∧ ∃ s, c.simulation = some s ∧ s.depth < 1 :=
    ⟨_, _, rfl, rfl, ⟨rfl, rfl, rfl⟩, rfl, _, rfl, Nat.zero_lt_one⟩
  obtain ⟨hcurrent, s, hs, hshort⟩ := hop
  have hpops : c.current.op.info.pops = some 1 := by rw [hcurrent]; rfl
  have hne : c.current.op ≠ .ckfinite := by rw [hcurrent]; decide
  obtain ⟨d, detail, hstop, hfault⟩ := (next_underflows hs hon hpops hshort).1 hne
  rw [hcurrent] at hfault
  exact ⟨start, c, d, htrack, hnext, hstop, detail, hfault⟩

/-- Checking a number for being finite on an empty stack: the walk goes on. -/
theorem ckfinite_does_not_underflow :
    ∃ start c d : Cursor, Move.trackStack [] [] 8 (Cursor.start none [0xC3, 0x2A]) = .ok () start
      ∧ start.next = (true, c) ∧ c.OnInstruction ∧ c.current.op.info.pops = some 1
      ∧ (∃ s, c.simulation = some s ∧ s.depth < 1) ∧ c.next = (true, d) ∧ d.fault = none :=
  ⟨_, _, _, rfl, rfl, ⟨rfl, rfl, rfl⟩, rfl, ⟨_, rfl, Nat.zero_lt_one⟩, rfl, rfl⟩

end Cursor

end ManagedImage
