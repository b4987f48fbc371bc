/-
Where the values on a stack begin.

The arguments of a call are found by running the statement again with a second list beside the
stack: for every value the place at which the computation of it began. What an instruction leaves
begins where the lowest value that it takes began, or at the instruction if it takes none.

The second list has to keep step with the stack, or a place is asked of it that it does not have.
`Begins` says that it does, that no beginning is behind the place a value comes from, and that
beginnings do not fall towards the top. One instruction keeps it (`Step.begins`): this needs that
the places the values themselves come from do not fall either (`Ordered`), for after a dead end the
list starts again from those.

What the beginnings are is said by depths. As long as no value is doubled and control goes on from
each instruction to the next, the value in slot `b` begins at the last instruction before which
at most `b` values were on the stack (`LastShallow`).
-/
import Mathlib.Data.List.GetD
import ManagedImage.Proofs.Code.Counts
import ManagedImage.Proofs.Code.Restore

set_option autoImplicit false

namespace ManagedImage

/-! ## The order of the values -/

namespace Simulation

/-- No value lies above one from a later place. -/
def Rising (slots : List Slot) : Prop := slots.Pairwise fun v w => w.source ≤ v.source

/-- The values on the stack and on every stack that is kept for a later place are in order. -/
structure Ordered (s : Simulation) : Prop where
  slots : Rising s.slots
  kept : ∀ q slots, s.snapshot? q = some slots → Rising slots

variable {place p k : Nat} {s s' : Simulation}

theorem Exchanged.rising (h : s.Exchanged place p k s') (hrising : Rising s.slots)
    (hle : ∀ v ∈ s.slots, v.source ≤ place) : Rising s'.slots := by
  obtain ⟨fresh, q, -, -, hfresh, hslots⟩ := h.slots
  rw [Rising, hslots, List.pairwise_append]
  refine ⟨?_, hrising.drop, ?_⟩
  · apply List.pairwise_of_forall_mem_list
    intro v hv w hw
    exact Nat.le_of_eq ((hfresh w hw).trans (hfresh v hv).symm)
  · intro v hv w hw
    rw [hfresh v hv]
    exact hle w (List.mem_of_mem_drop hw)

theorem ordered_start (args locals : List TypeSig) : (start args locals).Ordered :=
  ⟨List.Pairwise.nil, fun q slots hq => by cases hq⟩

theorem Ordered.enter {image : Option Image} {handlers : HandlerMap} (h : s.Ordered) :
    (s.enter image handlers place).Ordered := by
  refine ⟨entrySlots_of (K := Rising) ?_ h.slots h.kept List.Pairwise.nil, h.kept⟩
  intro entry
  apply List.pairwise_of_forall_mem_list
  intro v hv w hw
  exact Nat.le_of_eq ((exceptionSlots_source hw).trans (exceptionSlots_source hv).symm)

end Simulation

theorem Cursor.Settled.ordered {c : Cursor} {s s' : Simulation} (h : c.Settled s s')
    (hs : s.Ordered) (hle : c.started = true → ∀ v ∈ s.slots, v.source ≤ c.current.offset) :
    s'.Ordered := by
  rcases h with ⟨-, rfl⟩ | ⟨hstarted, hrun⟩
  · exact hs
  · have hslots : Simulation.Rising s'.slots :=
      (Simulate.run_exchanged hrun).1.rising hs.slots (hle hstarted)
    exact ⟨hslots, Simulation.kept_of_ran (Simulate.ran_of_run hrun) hs.kept hslots⟩

namespace Route

variable {r : Route}

/-- On the walk the values are in order. -/
theorem Landed.ordered {k : Nat} (h : r.Landed k) : (r.sim k).Ordered := by
  induction k with
  | zero => exact absurd h r.not_landed_zero
  | succ k ih =>
    obtain ⟨s, i, harr⟩ := h.arrival
    rw [harr.sim]
    apply Simulation.Ordered.enter
    rcases h.pred with rfl | hk
    · exact harr.settled.ordered (Simulation.ordered_start r.args r.locals)
        fun hstarted => Bool.noConfusion hstarted
    · exact harr.settled.ordered (ih hk) fun _ => hk.sourced.slots

end Route

/-! ## Beginnings -/

/-- The places are beginnings of the values on a stack, that of the top first. -/
structure Begins (origins : List Nat) (slots : List Slot) : Prop where
  early : List.Forall₂ (fun o v => o ≤ v.source) origins slots
  falling : origins.Pairwise fun a b => b ≤ a

/-- Where a value begins that an instruction leaves after it took `p` values. -/
def beginning (place : Nat) (origins : List Nat) (p : Nat) : Nat :=
  if p = 0 then place else origins.getD (p - 1) place

theorem originsAfter_eq (place : Nat) (origins : List Nat) (s : Simulation) :
    Move.originsAfter place origins s = if s.reshaped then Move.sources s
      else List.replicate s.pushed (beginning place origins s.popped) ++ origins.drop s.popped := rfl

section Begins

variable {origins : List Nat} {slots : List Slot} {place p k : Nat}

theorem begins_sources {s : Simulation} (h : Simulation.Rising s.slots) :
    Begins (Move.sources s) s.slots := by
  constructor
  · rw [Move.sources, List.forall₂_map_left_iff, List.forall₂_same]
    exact fun v _ => Nat.le_refl v.source
  · rw [Move.sources, List.pairwise_map]
    exact h

theorem Begins.length_eq (h : Begins origins slots) : origins.length = slots.length :=
  h.early.length_eq

/-- No beginning is behind the instruction that is about to run. -/
theorem Begins.le_place (h : Begins origins slots) (hle : ∀ v ∈ slots, v.source ≤ place) :
    ∀ o ∈ origins, o ≤ place := by
  intro o ho
  obtain ⟨x, hx, rfl⟩ := List.mem_iff_getElem.mp ho
  have hxs : x < slots.length := by
    rw [← h.length_eq]
    exact hx
  exact Nat.le_trans (h.early.get hx hxs) (hle _ (List.getElem_mem hxs))

theorem beginning_of_pos (hp : 0 < p) (hlt : p ≤ origins.length) :
    beginning place origins p = origins[p - 1] := by
  rw [beginning, if_neg (by omega), List.getD_eq_getElem _ _ (by omega)]

theorem Begins.beginning_le_place (h : Begins origins slots)
    (hle : ∀ v ∈ slots, v.source ≤ place) (hp : p ≤ origins.length) :
    beginning place origins p ≤ place := by
  by_cases hzero : p = 0
  · exact Nat.le_of_eq (if_pos hzero)
  · rw [beginning_of_pos (Nat.pos_of_ne_zero hzero) hp]
    exact h.le_place hle _ (List.getElem_mem _)

/-- What is left begins no later than any value that was taken. -/
theorem Begins.beginning_le_taken (h : Begins origins slots) (hp : p ≤ origins.length) :
    ∀ v ∈ slots.take p, beginning place origins p ≤ v.source := by
  intro v hv
  obtain ⟨x, hx, rfl⟩ := List.mem_iff_getElem.mp hv
  rw [List.length_take] at hx
  have hpos : 0 < p := by omega
  have hxo : x < origins.length := by omega
  have hlower : origins[p - 1] ≤ origins[x] := by
    by_cases hlast : x = p - 1
    · exact Nat.le_of_eq (getElem_congr_idx hlast.symm)
    · exact List.pairwise_iff_getElem.mp h.falling x (p - 1) _ _ (by omega)
  rw [beginning_of_pos hpos hp, List.getElem_take]
  exact Nat.le_trans hlower (h.early.get _ _)

/-- What is left begins no earlier than the values that stay below. -/
theorem Begins.le_beginning (h : Begins origins slots) (hle : ∀ v ∈ slots, v.source ≤ place)
    (hp : p ≤ origins.length) : ∀ o ∈ origins.drop p, o ≤ beginning place origins p := by
  intro o ho
  by_cases hzero : p = 0
  · rw [beginning, if_pos hzero]
    exact h.le_place hle o (List.mem_of_mem_drop ho)
  · obtain ⟨x, hx, rfl⟩ := List.mem_iff_getElem.mp ho
    rw [List.length_drop] at hx
    rw [beginning_of_pos (Nat.pos_of_ne_zero hzero) hp, List.getElem_drop]
    exact List.pairwise_iff_getElem.mp h.falling _ _ _ _ (by omega)

/-- **What an instruction does to the beginnings** keeps step with what it does to the stack. -/
theorem Begins.exchanged {s s' : Simulation} (h : Begins origins s.slots)
    (hle : ∀ v ∈ s.slots, v.source ≤ place) (hx : s.Exchanged place p k s') :
    Begins (List.replicate k (beginning place origins p) ++ origins.drop p) s'.slots := by
  obtain ⟨vs, hlength, hvs, hslots⟩ := hx.left_eq
  have hp : p ≤ origins.length := by
    rw [h.length_eq]
    exact hx.enough
  constructor
  · rw [hslots, ← hlength]
    apply List.rel_append
    · -- What is left is new, or it was among the values that were taken.
      have hall : ∀ v ∈ vs, beginning place origins p ≤ v.source := by
        intro v hv
        rcases hvs v hv with hnew | htaken
        · rw [hnew]
          exact h.beginning_le_place hle hp
        · exact h.beginning_le_taken hp v htaken
      rw [← List.map_const', List.forall₂_map_left_iff, List.forall₂_same]
      exact hall
    · exact List.forall₂_drop p h.early
  · rw [List.pairwise_append]
    refine ⟨?_, h.falling.drop, ?_⟩
    · exact List.pairwise_replicate.mpr (.inr (Nat.le_refl _))
    · intro a ha o ho
      rw [List.eq_of_mem_replicate ha]
      exact h.le_beginning hle hp o ho

end Begins

/-! ## One instruction of the walk -/

/-- The beginnings after one more instruction, if none is asked for that the list does not have. -/
def Move.originsAfter? (place : Nat) (origins : List Nat) (s : Simulation) : Option (List Nat) :=
  if s.reshaped then some (sources s)
  else (if s.popped = 0 then some place else origins[s.popped - 1]?).map fun first =>
    List.replicate s.pushed first ++ origins.drop s.popped

theorem originsAfter?_eq {place : Nat} {origins : List Nat} {s : Simulation}
    (h : s.reshaped = false → s.popped ≤ origins.length) :
    Move.originsAfter? place origins s = some (Move.originsAfter place origins s) := by
  rw [originsAfter_eq, Move.originsAfter?]
  cases hreshaped : s.reshaped with
  | true => rfl
  | false =>
    have hp := h hreshaped
    rw [if_neg Bool.false_ne_true, if_neg Bool.false_ne_true]
    by_cases hzero : s.popped = 0
    · rw [if_pos hzero, beginning, if_pos hzero]
      rfl
    · rw [if_neg hzero, beginning_of_pos (Nat.pos_of_ne_zero hzero) hp,
        List.getElem?_eq_getElem (by omega)]
      rfl

/-- Where control comes from the instruction before, the stack on entry is the one it left. -/
theorem Simulation.slots_of_not_reshaped {s : Simulation} {image : Option Image}
    {handlers : HandlerMap} {place : Nat}
    (h : (s.enter image handlers place).reshaped = false) :
    (s.enter image handlers place).slots = s.slots := by
  change (s.entrySlots image handlers place).2 = false at h
  change (s.entrySlots image handlers place).1 = s.slots
  unfold entrySlots at h ⊢
  cases hat : handlers.at? place with
  | some entry =>
    rw [hat] at h
    cases h
  | none =>
    rw [hat] at h
    dsimp only at h ⊢
    by_cases hdead : s.dead = true
    · rw [if_pos hdead] at h
      cases h
    · rw [if_neg hdead]

theorem Simulation.reshaped_eq_false {s : Simulation} {image : Option Image}
    {handlers : HandlerMap} {place : Nat} (hhandler : handlers.at? place = none)
    (hdead : s.dead = false) : (s.enter image handlers place).reshaped = false := by
  change (s.entrySlots image handlers place).2 = false
  rw [entrySlots, hhandler, hdead]
  rfl

namespace Route

variable {r : Route}

theorem Landed.dead {k : Nat} (h : r.Landed k) : (r.sim k).dead = false := by
  cases k with
  | zero => exact absurd h r.not_landed_zero
  | succ k =>
    obtain ⟨s, i, harr⟩ := h.arrival
    rw [harr.sim]
    rfl

/-- A move from the instruction of the walk at `k` to the next one: it is run on the stack `s`, and
the next one is entered with `t`. -/
structure Step (r : Route) (k : Nat) (c d : Cursor) (s t : Simulation) : Prop where
  next : c.next = (true, d)
  tracks : r.Tracks (k + 1) d
  simulation : d.simulation = some t
  before : s.slots = (r.sim k).slots
  after : t.slots = (r.sim (k + 1)).slots
  exchanged : t.reshaped = false → s.Exchanged (r.place k) t.popped t.pushed t
  single : (r.cursor k).current.op ≠ .dup → t.pushed ≤ 1
  falls : r.handlers.at? (r.place (k + 1)) = none →
    Simulate.endsFlow (r.cursor k).current.op = false → t.reshaped = false

theorem Tracks.step {k : Nat} {c : Cursor} (h : r.Tracks k c) (hk : r.Landed k)
    (hsucc : r.Landed (k + 1)) : ∃ d s t, r.Step k c d s t := by
  obtain ⟨hmoved, htracks⟩ := h.next
  obtain ⟨u, hu, -⟩ := h
  rcases Cursor.next_rests_or_arrives hu.carries.simulation with
    ⟨hrest, -⟩ | ⟨s', i, -, -, hsettled, -, hnext⟩
  · rw [hmoved.mpr hsucc] at hrest
    cases hrest
  · rw [hnext] at htracks
    -- The cursor is on an instruction, so it has been run.
    have hrun : Simulate.run c.image c.current u = .ok () s' := by
      rcases hsettled with ⟨hnot, -⟩ | ⟨-, hrun⟩
      · rw [hu.same.started, hk.started] at hnot
        cases hnot
      · exact hrun
    obtain ⟨hexchanged, hsingle⟩ := Simulate.run_exchanged hrun
    rw [hu.offset] at hexchanged
    refine ⟨_, Simulate.cleared u, _, hnext, htracks, rfl, hu.matched.slots, ?_, ?_, ?_, ?_⟩
    · obtain ⟨t', ht', -⟩ := htracks
      rw [← ht'.matched.slots]
      exact congrArg Simulation.slots (Option.some.inj ht'.carries.simulation)
    · intro hfalls
      refine ⟨hexchanged.enough, hexchanged.popped, hexchanged.pushed, ?_⟩
      rw [Simulation.slots_of_not_reshaped hfalls]
      exact hexchanged.slots
    · rw [← hu.same.current]
      exact hsingle
    · intro hhandler hflow
      apply Simulation.reshaped_eq_false
      · rw [← htracks.offset] at hhandler
        show c.handlers.at? i.offset = none
        rw [hu.carries.handlers]
        exact hhandler
      · rw [← hu.same.current] at hflow
        rw [(Simulate.ran_of_run hrun).dead, hu.matched.dead, hk.dead, hflow]
        rfl

section Step

variable {k : Nat} {c d : Cursor} {s t : Simulation} {origins : List Nat}

theorem Step.popped_le (h : r.Step k c d s t) (hb : Begins origins (r.sim k).slots)
    (hfalls : t.reshaped = false) : t.popped ≤ origins.length := by
  rw [hb.length_eq, ← h.before]
  exact (h.exchanged hfalls).enough

/-- **The beginnings keep step with the stack.** -/
theorem Step.begins (h : r.Step k c d s t) (hk : r.Landed k) (hsucc : r.Landed (k + 1))
    (hb : Begins origins (r.sim k).slots) :
    Begins (Move.originsAfter (r.place k) origins t) (r.sim (k + 1)).slots := by
  have hle := hk.sourced.slots
  rw [← h.before] at hb hle
  rw [originsAfter_eq, ← h.after]
  cases hreshaped : t.reshaped with
  | true =>
    -- The stack is another than before, and its values begin where they come from.
    apply begins_sources
    rw [h.after]
    exact hsucc.ordered.slots
  | false => exact hb.exchanged hle (h.exchanged hreshaped)

end Step

/-! ## Which places the beginnings are -/

/-- The last instruction from the place `start` on, up to the point `k` of the walk, before which at
most `b` values were on the stack. -/
structure LastShallow (r : Route) (start k b m : Nat) : Prop where
  landed : r.Landed m
  start_le : start ≤ r.place m
  le : m ≤ k
  shallow : (r.sim m).depth ≤ b
  deeper : ∀ i, m < i → i ≤ k → b < (r.sim i).depth

/-- There is only one such instruction. -/
theorem LastShallow.unique {start k b m m' : Nat} (h : r.LastShallow start k b m)
    (h' : r.LastShallow start k b m') : m = m' := by
  rcases Nat.lt_trichotomy m m' with hlt | heq | hlt
  · have hdeeper := h.deeper m' hlt h'.le
    have hshallow := h'.shallow
    omega
  · exact heq
  · have hdeeper := h'.deeper m hlt h.le
    have hshallow := h.shallow
    omega

theorem LastShallow.succ {start k b m : Nat} (h : r.LastShallow start k b m)
    (hdeeper : b < (r.sim (k + 1)).depth) : r.LastShallow start (k + 1) b m := by
  refine ⟨h.landed, h.start_le, Nat.le_succ_of_le h.le, h.shallow, ?_⟩
  intro i hi hle
  by_cases hlast : i = k + 1
  · rw [hlast]
    exact hdeeper
  · exact h.deeper i hi (by omega)

/-- The value in every slot, the bottom one first, begins at the last instruction before which the
stack did not reach above that slot. -/
def Exact (r : Route) (start k : Nat) (origins : List Nat) : Prop :=
  ∀ b, b < origins.length →
    ∃ m, r.LastShallow start k b m ∧ origins.reverse[b]? = some (r.place m)

/-- **Exact beginnings stay exact** over an instruction that leaves at most one value and from which
control goes on to the next. -/
theorem Step.exact {start k : Nat} {c d : Cursor} {s t : Simulation} {origins : List Nat}
    (h : r.Step k c d s t) (hk : r.Landed k) (hstart : start ≤ r.place k)
    (hb : Begins origins (r.sim k).slots) (hsingle : t.pushed ≤ 1) (hfalls : t.reshaped = false)
    (he : r.Exact start k origins) :
    r.Exact start (k + 1) (Move.originsAfter (r.place k) origins t) := by
  have hlength := hb.length_eq
  have hp := h.popped_le hb hfalls
  have hdepth : (r.sim (k + 1)).depth + t.popped = origins.length + t.pushed := by
    have hbefore : s.depth = (r.sim k).depth := congrArg List.length h.before
    have hafter : t.depth = (r.sim (k + 1)).depth := congrArg List.length h.after
    have hcount := (h.exchanged hfalls).depth_eq
    rw [hafter, hbefore] at hcount
    rw [hlength]
    exact hcount
  rw [originsAfter_eq, hfalls, if_neg Bool.false_ne_true]
  intro b hbound
  rw [List.length_append, List.length_replicate, List.length_drop] at hbound
  rw [List.reverse_append, List.reverse_replicate, List.reverse_drop]
  have htake : (origins.reverse.take (origins.length - t.popped)).length
      = origins.length - t.popped := by
    rw [List.length_take, List.length_reverse]
    omega
  by_cases hlow : b < origins.length - t.popped
  · -- A value below those that were taken begins where it did.
    obtain ⟨m, hm, hat⟩ := he b (by omega)
    refine ⟨m, hm.succ (by omega), ?_⟩
    rw [List.getElem?_append_left (by omega), List.getElem?_take_of_lt hlow]
    exact hat
  · -- What was left lies in the slot of the lowest value that was taken, or on top of the others.
    have hslot : b = origins.length - t.popped := by omega
    rw [List.getElem?_append_right (by omega), List.getElem?_replicate, if_pos (by omega)]
    by_cases hzero : t.popped = 0
    -- If nothing was taken, the value begins at the instruction itself.
    · refine ⟨k, ⟨hk, hstart, Nat.le_succ k, ?_, ?_⟩, ?_⟩
      · rw [Simulation.depth, ← hlength]
        omega
      · intro i hi hle
        obtain rfl : i = k + 1 := by omega
        omega
      · rw [beginning, if_pos hzero]
    · obtain ⟨m, hm, hat⟩ := he b (by omega)
      refine ⟨m, hm.succ (by omega), ?_⟩
      rw [beginning_of_pos (Nat.pos_of_ne_zero hzero) hp, ← hat,
        List.getElem?_reverse (by omega), List.getElem?_eq_getElem (by omega)]
      exact congrArg some (getElem_congr_idx (by omega))

/-- From the place `start` on, up to the point `k` of the walk, no handler starts and control goes on
from each instruction to the next, and none of those before `k` doubles a value. -/
structure Straight (r : Route) (start k : Nat) : Prop where
  unhandled : ∀ m, r.Landed m → start ≤ r.place m → m ≤ k → r.handlers.at? (r.place m) = none
  single : ∀ m, r.Landed m → start ≤ r.place m → m < k → (r.cursor m).current.op ≠ .dup
  falls : ∀ m, r.Landed m → start ≤ r.place m → m < k →
    Simulate.endsFlow (r.cursor m).current.op = false

theorem Step.exact_of_straight {start j k : Nat} {c d : Cursor} {s t : Simulation}
    {origins : List Nat} (h : r.Step j c d s t) (hj : r.Landed j) (hsucc : r.Landed (j + 1))
    (hstart : start ≤ r.place j) (hjk : j < k) (hb : Begins origins (r.sim j).slots)
    (hs : r.Straight start k) (he : r.Exact start j origins) :
    r.Exact start (j + 1) (Move.originsAfter (r.place j) origins t) := by
  have hplace := r.place_le_succ j
  refine h.exact hj hstart hb (h.single (hs.single j hj hstart hjk)) ?_ he
  apply h.falls
  · exact hs.unhandled (j + 1) hsucc (by omega) hjk
  · exact hs.falls j hj hstart hjk

end Route

/-! ## The way to the call -/

/-- Like `originsTo`, but with nothing once a beginning was asked for that was not there. -/
def Move.originsTo? (call : Nat) : (left : Nat) → Option (List Nat) → Move (Option (List Nat))
  | 0, _ => stopped call
  | left + 1, origins => do
    let c ← get
    if c.current.offset < call then
      if ← next then
        let s ← requireSimulation
        originsTo? call left (origins.bind fun found => originsAfter? c.current.offset found s)
      else stopped call
    else return origins

namespace Route

variable {r : Route}

theorem originsTo?_succ {c : Cursor} {t : Simulation} (call left : Nat)
    (origins : Option (List Nat)) (hs : c.next.2.simulation = some t) :
    Move.originsTo? call (left + 1) origins c = if c.current.offset < call then
        match c.next with
        | (true, d) => Move.originsTo? call left
            (origins.bind fun found => Move.originsAfter? c.current.offset found t) d
        | (false, d) => Move.stopped call d
      else .ok origins c := by
  rw [Move.originsTo?, EStateM.bind_apply, EStateM.get_apply]
  dsimp only
  by_cases h : c.current.offset < call
  · rw [if_pos h, if_pos h]
    exact next_then_simulation hs _ _
  · rw [if_neg h, if_neg h]
    rfl

/-- What is found on the way to the call at `k` from the statement that starts at `start`. -/
structure Found (r : Route) (start k : Nat) (origins : List Nat) : Prop where
  begins : Begins origins (r.sim k).slots
  exact : ∀ j, k ≤ j → r.Straight start j → r.Exact start k origins

theorem Step.found {start k : Nat} {c d : Cursor} {s t : Simulation} {origins : List Nat}
    (h : r.Step k c d s t) (hk : r.Landed k) (hsucc : r.Landed (k + 1))
    (hstart : start ≤ r.place k) (hf : r.Found start k origins) :
    r.Found start (k + 1) (Move.originsAfter (r.place k) origins t) := by
  refine ⟨h.begins hk hsucc hf.begins, ?_⟩
  intro j hj hs
  exact h.exact_of_straight hk hsucc hstart (by omega) hf.begins hs (hf.exact j (by omega) hs)

/-- **The way to a call.** A cursor on the walk comes to every instruction the walk comes to, and no
beginning is asked for that is not there. -/
theorem Tracks.originsTo {start k : Nat} (hk : r.Landed k) (left : Nat) :
    ∀ {j : Nat} {c : Cursor} {origins : List Nat}, r.Tracks j c → r.Landed j → j ≤ k →
      r.place k - r.place j < left → start ≤ r.place j → r.Found start j origins →
      ∃ found, Move.originsTo (r.place k) left origins c = .ok found (c.advance (k - j))
        ∧ Move.originsTo? (r.place k) left (some origins) c
          = .ok (some found) (c.advance (k - j))
        ∧ r.Tracks k (c.advance (k - j)) ∧ r.Found start k found := by
  -- A move is at least one byte of the code, so the moves do not run out before the call.
  induction left with
  | zero => intro j c origins _ _ _ hleft; omega
  | succ left ih =>
    intro j c origins h hj hjk hleft hstart hf
    obtain ⟨t, ht, -⟩ := h.next.2
    rw [originsTo_succ _ _ _ ht.carries.simulation, originsTo?_succ _ _ _ ht.carries.simulation,
      h.offset]
    by_cases heq : j = k
    · rw [heq, if_neg (Nat.lt_irrefl _), if_neg (Nat.lt_irrefl _), Nat.sub_self]
      exact ⟨origins, rfl, rfl, heq ▸ h, heq ▸ hf⟩
    · have hlt : r.place j < r.place k := place_lt hj hk (by omega)
      have hsucc : r.Landed (j + 1) := hk.of_le (by omega) (by omega)
      have hless : r.place j < r.place (j + 1) := place_lt hj hsucc (by omega)
      obtain ⟨d, s, t', hstep⟩ := h.step hj hsucc
      have hsim := ht.carries.simulation
      rw [hstep.next] at hsim
      obtain rfl : t' = t := Option.some.inj (hstep.simulation.symm.trans hsim)
      obtain ⟨found, hto, hto?, htracks, hfound⟩ := ih hstep.tracks hsucc (by omega) (by omega) (by omega)
        (hstep.found hj hsucc hstart hf)
      rw [if_pos hlt, if_pos hlt, hstep.next, Option.bind_some,
        originsAfter?_eq (hstep.popped_le hf.begins)]
      rw [Cursor.advance_sub (by omega), hstep.next]
      exact ⟨found, hto, hto?, htracks, hfound⟩

end Route

end ManagedImage
