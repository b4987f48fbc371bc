/-
Running the same instructions at other places.

Places enter a simulation in three ways: as the sources of slots, as the places that
jumps leave a stack for, and in the texts of faults. If the places of one code are
related to those of another, the two simulations stay related: same variables, same
depth, slots of the same kind with related sources, and the same outcome but for the text
of a fault.

`Simulate.Alike` says this of two computations, as a relation between what they start
from and what they end with. It is closed under sequencing, so there is one short case
for each kind of effect. That the relation keeps the order of places is needed only where
places are compared, which is where a jump leaves its stack (`Alike.afterEffect`).
-/
import ManagedImage.Proofs.Code.Locality

set_option autoImplicit false

namespace ManagedImage

section Relations

variable (R : Nat → Nat → Prop)

/-- Slots of the same kind that were left at related places. -/
structure Slot.Alike (v w : Slot) : Prop where
  category : w.category = v.category
  type : w.type = v.type
  source : R v.source w.source

/-- Numbers of related places. -/
def PlacesAlike (t u : Int) : Prop := ∃ p q : Nat, t = p ∧ u = q ∧ R p q

/-- The same operand but for the places it leads to, which are related. -/
def Operand.Alike : Operand → Operand → Prop
  | .target t, .target u => PlacesAlike R t u
  | .targets ts, .targets us => List.Forall₂ (PlacesAlike R) ts us
  | x, y => y = x

/-- The same operation at related places. -/
structure Instruction.Alike (i j : Instruction) : Prop where
  offset : R i.offset j.offset
  op : j.op = i.op
  operand : i.operand.Alike R j.operand

/-- Simulations with the same variables and related stacks, also those left for related places. -/
structure Simulation.Alike (s t : Simulation) : Prop where
  args : t.args = s.args
  locals : t.locals = s.locals
  dead : t.dead = s.dead
  slots : List.Forall₂ (Slot.Alike R) s.slots t.slots
  snapshots : ∀ p q, R p q →
    Option.Rel (List.Forall₂ (Slot.Alike R)) (s.snapshot? p) (t.snapshot? q)

/-- A relation of places that keeps their order. -/
def KeepsOrder : Prop := ∀ p q p' q', R p q → R p' q' → (p < p' ↔ q < q')

end Relations

variable {R : Nat → Nat → Prop}

namespace Operand

variable {x y : Operand}

theorem Alike.toInt_eq (h : x.Alike R y) : y.toInt = x.toInt := by
  unfold Alike at h
  split at h
  · rfl
  · rfl
  · rw [h]

theorem Alike.toToken_eq (h : x.Alike R y) : y.toToken = x.toToken := by
  unfold Alike at h
  split at h
  · rfl
  · rfl
  · rw [h]

theorem Alike.places (h : x.Alike R y) : List.Forall₂ (PlacesAlike R) x.places y.places := by
  unfold Alike at h
  split at h
  · exact .cons h .nil
  · exact h
  · next htarget htargets =>
    subst h
    cases y with
    | target t => exact absurd rfl (htarget t t rfl)
    | targets ts => exact absurd rfl (htargets ts ts rfl)
    | none | int _ | float _ | token _ => exact .nil

end Operand

namespace KeepsOrder

variable {p q p' q' : Nat}

/-- An order that is kept is kept strictly, so related places are paired off one to one. -/
theorem eq_iff (h : KeepsOrder R) (hpq : R p q) (hpq' : R p' q') : p = p' ↔ q = q' := by
  have hlt := h p q p' q' hpq hpq'
  have hgt := h p' q' p q hpq' hpq
  omega

theorem mem_iff (h : KeepsOrder R) (hpq : R p q) {ts us : List Int}
    (hts : List.Forall₂ (PlacesAlike R) ts us) : (p : Int) ∈ ts ↔ (q : Int) ∈ us := by
  induction hts with
  | nil => simp
  | cons htu _ ih =>
    obtain ⟨p', q', rfl, rfl, hpq'⟩ := htu
    simp only [List.mem_cons, Int.ofNat_inj, ih, h.eq_iff hpq hpq']

end KeepsOrder

theorem Simulation.Alike.depth_eq {s t : Simulation} (h : s.Alike R t) : t.depth = s.depth :=
  h.slots.length_eq.symm

/-- Only the stack changes. -/
theorem Simulation.Alike.withSlots {s t : Simulation} (h : s.Alike R t) {vs ws : List Slot}
    (hslots : List.Forall₂ (Slot.Alike R) vs ws) (a b c d : Nat) :
    Simulation.Alike R { s with slots := vs, popped := a, pushed := b }
      { t with slots := ws, popped := c, pushed := d } :=
  ⟨h.args, h.locals, h.dead, hslots, h.snapshots⟩

namespace Simulate

/-- Both outcomes are successes with related results, or both are faults; the simulations are
related in either case. -/
def OutcomesAlike {α β : Type} (R : Nat → Nat → Prop) (Q : α → β → Prop) :
    EStateM.Result Fault Simulation α → EStateM.Result Fault Simulation β → Prop
  | .ok a s, .ok b t => Q a b ∧ s.Alike R t
  | .error _ s, .error _ t => s.Alike R t
  | _, _ => False

theorem OutcomesAlike.ok_or_error {α β : Type} {Q : α → β → Prop}
    {x : EStateM.Result Fault Simulation α} {y : EStateM.Result Fault Simulation β}
    (h : OutcomesAlike R Q x y) :
    (∃ a b s t, x = .ok a s ∧ y = .ok b t ∧ Q a b ∧ s.Alike R t)
      ∨ ∃ e f s t, x = .error e s ∧ y = .error f t ∧ s.Alike R t := by
  cases x with
  | ok a s =>
    cases y with
    | ok b t => exact Or.inl ⟨a, b, s, t, rfl, rfl, h⟩
    | error f t => exact h.elim
  | error e s =>
    cases y with
    | ok b t => exact h.elim
    | error f t => exact Or.inr ⟨e, f, s, t, rfl, rfl, h⟩

/-- From related simulations the two computations have related outcomes. -/
def Alike {α β : Type} (R : Nat → Nat → Prop) (Q : α → β → Prop) (x : Simulate α)
    (y : Simulate β) : Prop :=
  ∀ s t : Simulation, s.Alike R t → OutcomesAlike R Q (x s) (y t)

section Closure

variable {α β γ δ : Type} {P : α → β → Prop} {Q : γ → δ → Prop}

theorem Alike.pure {a : α} {b : β} (h : P a b) :
    Alike R P (Pure.pure a : Simulate α) (Pure.pure b : Simulate β) := fun _ _ hst => ⟨h, hst⟩

theorem Alike.throw (e f : Fault) :
    Alike R P (throw e : Simulate α) (throw f : Simulate β) := fun _ _ hst => hst

/-- Related results of the first computations are what the second ones start from. -/
theorem Alike.bind {x : Simulate α} {y : Simulate β} {f : α → Simulate γ} {g : β → Simulate δ}
    (hx : Alike R P x y) (hf : ∀ a b, P a b → Alike R Q (f a) (g b)) :
    Alike R Q (x >>= f) (y >>= g) := by
  intro s t hst
  rw [EStateM.bind_apply, EStateM.bind_apply]
  rcases (hx s t hst).ok_or_error with
    ⟨a, b, s', t', hs, ht, hab, hst'⟩ | ⟨e, f, s', t', hs, ht, hst'⟩
  · rw [hs, ht]
    exact hf a b hab s' t' hst'
  · rw [hs, ht]
    exact hst'

theorem Alike.get {f g : Simulation → Simulate α} {P : α → α → Prop}
    (h : ∀ s t : Simulation, s.Alike R t → Alike R P (f s) (g t)) :
    Alike R P ((MonadState.get : Simulate Simulation) >>= f)
      ((MonadState.get : Simulate Simulation) >>= g) :=
  fun s t hst => h s t hst s t hst

theorem Alike.ite {c d : Prop} [Decidable c] [Decidable d] (hcd : c ↔ d) {x x' : Simulate α}
    {y y' : Simulate β} (hx : Alike R P x y) (hx' : Alike R P x' y') :
    Alike R P (if c then x else x') (if d then y else y') := by
  by_cases h : c
  · rw [if_pos h, if_pos (hcd.mp h)]
    exact hx
  · rw [if_neg h, if_neg (fun hd => h (hcd.mpr hd))]
    exact hx'

/-- Two results that are the same but for the text of a fault. -/
theorem Alike.ofExcept {x y : Except Fault α} (h : x.toOption = y.toOption) :
    Alike R Eq (MonadExcept.ofExcept x : Simulate α) (MonadExcept.ofExcept y) := by
  cases x with
  | ok a =>
    cases y with
    | ok b => exact Alike.pure (Option.some.inj h)
    | error f => cases h
  | error e =>
    cases y with
    | ok b => cases h
    | error f => exact Alike.throw e f

end Closure

/-! ## The steps of an effect -/

section Steps

variable {α β : Type} {P : α → β → Prop} {i j : Instruction}

theorem shapeFault_alike (a b : String) :
    Alike R P (shapeFault i a : Simulate α) (shapeFault j b : Simulate β) := Alike.throw _ _

/-- A check that refuses in both or in neither stands in front of what comes after it. -/
theorem check_alike {c : Prop} [Decidable c] {a b : String} {x : Simulate α} {y : Simulate β}
    (h : Alike R P x y) :
    Alike R P (if c then shapeFault i a >>= fun _ : PUnit => x else x)
      (if c then shapeFault j b >>= fun _ : PUnit => y else y) :=
  Alike.ite Iff.rfl
    ((shapeFault_alike (P := fun _ _ : PUnit => True) a b).bind fun _ _ _ => h) h

theorem underflow_alike (n : Nat) :
    Alike R P (underflow i n : Simulate α) (underflow j n : Simulate β) := by
  intro s t hst
  exact hst

theorem pop_alike (n : Nat) : Alike R (List.Forall₂ (Slot.Alike R)) (pop i n) (pop j n) := by
  intro s t hst
  rw [pop_eq, pop_eq, hst.depth_eq]
  by_cases h : s.depth < n
  · rw [if_pos h, if_pos h]
    exact underflow_alike n s t hst
  · rw [if_neg h, if_neg h]
    exact ⟨List.forall₂_take n hst.slots, hst.withSlots (List.forall₂_drop n hst.slots) _ _ _ _⟩

theorem pop1_alike : Alike R (Slot.Alike R) (pop1 i) (pop1 j) := by
  refine (pop_alike 1).bind fun vs ws h => ?_
  rcases h with _ | ⟨hv, hrest⟩
  · exact underflow_alike 1
  · rcases hrest with _ | ⟨-, -⟩
    · exact Alike.pure hv
    · exact underflow_alike 1

theorem pop2_alike :
    Alike R (fun v w => v.1.Alike R w.1 ∧ v.2.Alike R w.2) (pop2 i) (pop2 j) := by
  refine (pop_alike 2).bind fun vs ws h => ?_
  rcases h with _ | ⟨hb, hrest⟩
  · exact underflow_alike 2
  · rcases hrest with _ | ⟨ha, hrest⟩
    · exact underflow_alike 2
    · rcases hrest with _ | ⟨-, -⟩
      · exact Alike.pure ⟨ha, hb⟩
      · exact underflow_alike 2

theorem pushSlot_alike {v w : Slot} (h : v.Alike R w) :
    Alike R (fun _ _ => True) (pushSlot v) (pushSlot w) := by
  intro s t hst
  exact ⟨trivial, hst.withSlots (.cons h hst.slots) _ _ _ _⟩

theorem push_alike (h : R i.offset j.offset) (v : Operated) :
    Alike R (fun _ _ => True) (push i v) (push j v) := pushSlot_alike ⟨rfl, rfl, h⟩

theorem variableType_alike (h : i.Alike R j) (types : List TypeSig) (what : String) :
    Alike R Eq (variableType i types what) (variableType j types what) := by
  unfold variableType
  rw [h.operand.toInt_eq]
  dsimp only
  split
  · exact Alike.pure rfl
  · exact shapeFault_alike _ _

theorem namedType_alike (h : i.Alike R j) (image : Option Image) :
    Alike R Eq (namedType image i) (namedType image j) := by
  unfold namedType
  rw [h.operand.toToken_eq]
  cases image with
  | none => exact Alike.pure rfl
  | some img => exact (Alike.ofExcept rfl).bind fun a b hab => Alike.pure (congrArg some hab)

theorem fieldType_alike (h : i.Alike R j) (image : Option Image) :
    Alike R Eq (fieldType image i) (fieldType image j) := by
  unfold fieldType
  rw [h.operand.toToken_eq]
  cases image with
  | none => exact Alike.pure rfl
  | some img => exact (Alike.ofExcept rfl).bind fun a b hab => Alike.pure (congrArg some hab)

theorem callee_alike (h : i.Alike R j) (image : Option Image) :
    (callee image i).toOption = (callee image j).toOption := by
  unfold callee
  cases image with
  | none => simp only [Except.toOption]
  | some img => simp only [h.op, h.operand.toToken_eq]

theorem call_alike (h : i.Alike R j) (image : Option Image) :
    Alike R (fun _ _ => True) (call image i) (call image j) := by
  have hcallee : Alike R Eq (MonadExcept.ofExcept (callee image i) : Simulate MethodSig)
      (MonadExcept.ofExcept (callee image j)) := Alike.ofExcept (callee_alike h image)
  unfold call
  refine hcallee.bind ?_
  rintro sig _ rfl
  rw [h.op]
  refine (pop_alike _).bind fun _ _ _ => ?_
  apply Alike.ite Iff.rfl
  · rw [h.operand.toToken_eq]
    cases image with
    | none => exact push_alike h.offset _
    | some img =>
      -- Which type a constructor makes is read off the token, so it is the same type or fault.
      refine (Alike.ofExcept rfl).bind ?_
      rintro t _ rfl
      exact push_alike h.offset _
  · exact Alike.ite Iff.rfl (push_alike h.offset _) (Alike.pure trivial)

theorem combine_eq {v v' w w' : Slot} (hv : v.Alike R v') (hw : w.Alike R w') (floats : Bool)
    (references : ReferenceArithmetic) :
    combine floats references v' w' = combine floats references v w := by
  unfold combine
  rw [hv.category, hw.category, hv.type, hw.type]

end Steps

/-! ## Effects -/

/-- **The effect of an operation at related places is related**, whatever the operation. -/
theorem effect_alike {i j : Instruction} (h : i.Alike R j) (image : Option Image) :
    Alike R (fun _ _ => True) (effect image i) (effect image j) := by
  have hpush := fun v => push_alike (R := R) h.offset v
  unfold effect
  rw [h.op]
  -- One case for each kind of effect. What it asks of the values it takes are their categories and
  -- types, which related values share; only the place of what it leaves differs.
  cases i.op.effect with
  | nothing => exact Alike.pure trivial
  | «variable» isArgument isAddress =>
    refine Alike.get fun s t hst => Alike.ite Iff.rfl ?_ ?_
    · rw [hst.args]
      refine (variableType_alike h _ _).bind ?_
      rintro type _ rfl
      exact hpush _
    · rw [hst.locals]
      refine (variableType_alike h _ _).bind ?_
      rintro type _ rfl
      exact hpush _
  | replace pops result => exact (pop_alike _).bind fun _ _ _ => hpush _
  | consume pops => exact (pop_alike _).bind fun _ _ _ => Alike.pure trivial
  | duplicate =>
    refine pop1_alike.bind fun v w hvw => (pushSlot_alike hvw).bind fun _ _ _ => ?_
    exact pushSlot_alike ⟨hvw.category, hvw.type, h.offset⟩
  | jump =>
    refine Alike.get fun s t hst => ?_
    rw [hst.depth_eq]
    exact Alike.ite Iff.rfl (shapeFault_alike _ _) (Alike.pure trivial)
  | call => exact call_alike h image
  | ret =>
    refine Alike.get fun s t hst => ?_
    rw [hst.depth_eq]
    have hpop : Alike R (fun _ _ => True) (do let _ ← pop i s.depth) (do let _ ← pop j s.depth) :=
      (pop_alike _).bind fun _ _ _ => Alike.pure trivial
    exact check_alike hpop
  | clear =>
    refine Alike.get fun s t hst => ?_
    rw [hst.depth_eq]
    exact (pop_alike _).bind fun _ _ _ => Alike.pure trivial
  | endFilter =>
    refine Alike.get fun s t hst => ?_
    rw [hst.depth_eq]
    have hpop : Alike R (fun _ _ => True) (do let _ ← pop i 1) (do let _ ← pop j 1) :=
      (pop_alike _).bind fun _ _ _ => Alike.pure trivial
    exact check_alike hpop
  | compare leavesAnswer =>
    refine pop2_alike.bind fun v w hvw => ?_
    have hanswer : Alike R (fun _ _ => True)
        (if leavesAnswer then push i (.ofPrimitive .i4) else Pure.pure ())
        (if leavesAnswer then push j (.ofPrimitive .i4) else Pure.pure ()) :=
      Alike.ite Iff.rfl (hpush _) (Alike.pure trivial)
    dsimp only
    rw [hvw.1.category, hvw.2.category]
    exact check_alike hanswer
  | binary floats references =>
    refine pop2_alike.bind fun v w hvw => ?_
    dsimp only
    rw [combine_eq hvw.1 hvw.2]
    split
    · exact hpush _
    · exact shapeFault_alike _ _
  | shift =>
    refine pop2_alike.bind fun v w hvw => ?_
    dsimp only
    rw [hvw.1.category, hvw.2.category, hvw.1.type]
    exact check_alike (hpush _)
  | unary floats =>
    refine pop1_alike.bind fun v w hvw => ?_
    rw [hvw.category, hvw.type]
    exact check_alike (hpush _)
  | convert result =>
    refine pop1_alike.bind fun v w hvw => ?_
    rw [hvw.category]
    exact check_alike (hpush _)
  | loadObject =>
    refine pop1_alike.bind fun v w hvw => ?_
    rw [referencedType, referencedType, hvw.type]
    exact hpush _
  | loadElement =>
    refine pop2_alike.bind fun v w hvw => ?_
    dsimp only
    rw [elementType, elementType, hvw.1.type]
    exact hpush _
  | field pops isAddress =>
    refine (pop_alike _).bind fun _ _ _ => (fieldType_alike h image).bind ?_
    rintro type _ rfl
    exact hpush _
  | typed pops use =>
    refine (pop_alike _).bind fun _ _ _ => (namedType_alike h image).bind ?_
    rintro type _ rfl
    exact hpush _
  | newArray =>
    refine pop1_alike.bind fun v w hvw => ?_
    have hrest : Alike R (fun _ _ => True) (do
          let t ← namedType image i
          push i (.object (t.map .szArray)))
        (do
          let t ← namedType image j
          push j (.object (t.map .szArray))) := by
      refine (namedType_alike h image).bind ?_
      rintro type _ rfl
      exact hpush _
    rw [hvw.category]
    exact check_alike hrest
  | methodPointer pops =>
    refine (pop_alike _).bind fun _ _ _ => ?_
    rw [methodPointerType, methodPointerType, h.operand.toToken_eq]
    exact hpush _

/-- After related effects the jumps leave related stacks at related places. -/
theorem afterEffect_alike (hR : KeepsOrder R) {i j : Instruction} (hoffset : R i.offset j.offset)
    (hplaces : List.Forall₂ (PlacesAlike R) i.operand.places j.operand.places)
    (hflow : endsFlow j.op = endsFlow i.op) {s t : Simulation} (h : s.Alike R t) :
    (afterEffect i s).Alike R (afterEffect j t) := by
  rw [afterEffect, afterEffect, Simulation.foldl_keep_eq, Simulation.foldl_keep_eq _ _ t]
  refine ⟨h.args, h.locals, ?_, h.slots, fun p q hpq => ?_⟩
  · show (t.dead || endsFlow j.op) = (s.dead || endsFlow i.op)
    rw [h.dead, hflow]
  · show Option.Rel _ ((i.operand.places.foldl (Simulation.keep i.offset) s).snapshot? p)
      ((j.operand.places.foldl (Simulation.keep j.offset) t).snapshot? q)
    rw [Simulation.snapshot?_foldl_keep, Simulation.snapshot?_foldl_keep]
    -- A jump goes forward to the one place exactly if the other jump does so to the other.
    have hjump : (i.offset < p ∧ (p : Int) ∈ i.operand.places)
        ↔ (j.offset < q ∧ (q : Int) ∈ j.operand.places) :=
      and_congr (hR _ _ _ _ hoffset hpq) (hR.mem_iff hpq hplaces)
    -- A stack that an earlier jump has left there stays.
    have hkept := h.snapshots p q hpq
    generalize s.snapshot? p = a, t.snapshot? q = b at hkept
    rcases hkept with hslots | _
    · exact .some hslots
    · by_cases hp : i.offset < p ∧ (p : Int) ∈ i.operand.places
      · rw [if_pos hp, if_pos (hjump.mp hp)]
        exact .some h.slots
      · rw [if_neg hp, if_neg (fun hq => hp (hjump.mpr hq))]
        exact .none

/-- **A run at related places is related.** The effects are those of the normal forms; the jumps and
the end of the flow are those of the instructions as they stand. -/
theorem run_alike_at (hR : KeepsOrder R) {i j : Instruction} (h : i.normalize.Alike R j.normalize)
    (hplaces : List.Forall₂ (PlacesAlike R) i.operand.places j.operand.places)
    (hflow : endsFlow j.op = endsFlow i.op) (image : Option Image) :
    Alike R (fun _ _ => True) (run image i) (run image j) := by
  intro s t hst
  have hoffset := h.offset
  rw [normalize_offset, normalize_offset] at hoffset
  have heffect := effect_alike h image (cleared s) (cleared t) (hst.withSlots hst.slots _ _ _ _)
  rw [run_eq, run_eq]
  rcases heffect.ok_or_error with ⟨_, _, s', t', hs, ht, -, hst'⟩ | ⟨e, f, s', t', hs, ht, hst'⟩
  · rw [hs, ht]
    exact ⟨trivial, afterEffect_alike hR hoffset hplaces hflow hst'⟩
  · rw [hs, ht]
    exact hst'

end Simulate

/-! ## Entering an instruction -/

/-- The same handlers at related places, in the same order. -/
def HandlerMap.Alike (R : Nat → Nat → Prop) : HandlerMap → HandlerMap → Prop :=
  List.Forall₂ fun e f => PlacesAlike R e.1 f.1 ∧ f.2 = e.2

section Entry

variable {m n : HandlerMap} {p q : Nat}

theorem HandlerMap.Alike.at?_eq (hR : KeepsOrder R) (h : m.Alike R n) (hpq : R p q) :
    n.at? q = m.at? p := by
  unfold HandlerMap.Alike at h
  unfold HandlerMap.at?
  induction h with
  | nil => rfl
  | @cons e f m n hef _ ih =>
    obtain ⟨⟨p', q', hp', hq', hpq'⟩, hentry⟩ := hef
    have hplace : e.1 = (p : Int) ↔ f.1 = (q : Int) := by
      rw [hp', hq', Int.ofNat_inj, Int.ofNat_inj]
      exact hR.eq_iff hpq' hpq
    by_cases hp : e.1 = (p : Int)
    · simp only [List.find?_cons, decide_eq_true hp, decide_eq_true (hplace.mp hp), Option.map_some,
        hentry]
    · simp only [List.find?_cons, decide_eq_false hp, decide_eq_false (mt hplace.mpr hp), ih]

namespace Simulation

theorem exceptionSlots_alike (image : Option Image) (e : HandlerEntry) (hpq : R p q) :
    List.Forall₂ (Slot.Alike R) (exceptionSlots image e p) (exceptionSlots image e q) := by
  unfold exceptionSlots
  split
  · exact .cons ⟨rfl, rfl, hpq⟩ .nil
  · exact .cons ⟨rfl, rfl, hpq⟩ .nil
  · exact .nil

/-- **Entering related places** leaves related stacks: that of the handler, that of a jump, or the
one that was there. -/
theorem enter_alike (hR : KeepsOrder R) (hmn : m.Alike R n) (hpq : R p q) (image : Option Image)
    {s t : Simulation} (h : s.Alike R t) :
    (s.enter image m p).Alike R (t.enter image n q) := by
  have hslots : List.Forall₂ (Slot.Alike R) (s.entrySlots image m p).1
      (t.entrySlots image n q).1 := by
    unfold entrySlots
    rw [hmn.at?_eq hR hpq, h.dead]
    split
    · exact exceptionSlots_alike image _ hpq
    · split
      · have hkept := h.snapshots p q hpq
        generalize s.snapshot? p = a, t.snapshot? q = b at hkept
        rcases hkept with hslots | _
        · exact hslots
        · exact .nil
      · exact h.slots
  exact ⟨h.args, h.locals, rfl, hslots, h.snapshots⟩

end Simulation

end Entry

end ManagedImage
