/-
The stack does not depend on short forms.

A code can be written without abbreviations: the instructions are the normal forms of the
old ones, in the same order, and whatever names a place names the place of the same
instruction in the new code. The effects are taken from normal forms in any case, but
which places a jump leaves a stack for, where control ends and where a handler starts are
taken from the instructions as they stand. All of these go along with the marks of the
two codes, and the order of the marks is the same.

A tracked walk over the one code is therefore abreast of the walk over the other all the
way (`Twins.abreast`): it is a relation between the two cursors that one move keeps.
-/
import ManagedImage.Proofs.Code.Relabelling
import ManagedImage.Proofs.Code.Walk
import ManagedImage.Proofs.Code.Disassembly
import Mathlib.Data.List.Sort

set_option autoImplicit false

namespace ManagedImage

/-! ## Normal forms -/

namespace Opcode

/-- An operation is not abbreviated any further. -/
def isNormal (op : Opcode) : Bool := op.implied?.isNone && op.longForm?.isNone

theorem normal_of_longForm? {op long : Opcode} (h : op.longForm? = some long) :
    long.isNormal = true ∧ Simulate.endsFlow long = Simulate.endsFlow op := by
  have hall : ∀ op ∈ all, ∀ long ∈ op.longForm?, long.isNormal = true
      ∧ Simulate.endsFlow long = Simulate.endsFlow op := by
    decide +kernel
  exact hall op (List.mem_of_getElem? op.getElem?_all) long h

/-- What abbreviates an operation together with its operand has no operand of its own. -/
theorem normal_of_implied? {op long : Opcode} {v : Int} (h : op.implied? = some (long, v)) :
    long.isNormal = true ∧ Simulate.endsFlow long = Simulate.endsFlow op ∧ op.operand = .none := by
  have hall : ∀ op ∈ all, ∀ x ∈ op.implied?, x.1.isNormal = true
      ∧ Simulate.endsFlow x.1 = Simulate.endsFlow op ∧ op.operand = .none := by
    decide +kernel
  exact hall op (List.mem_of_getElem? op.getElem?_all) (long, v) h

end Opcode

namespace Instruction

theorem normalize_of_normal {i : Instruction} (h : i.op.isNormal = true) : i.normalize = i := by
  rw [Opcode.isNormal, Bool.and_eq_true, Option.isNone_iff_eq_none, Option.isNone_iff_eq_none] at h
  unfold normalize
  rw [h.1, h.2]

/-- A normal form is normal, and control goes on behind it as behind the short form. -/
theorem normalize_normal (i : Instruction) : i.normalize.op.isNormal = true
    ∧ Simulate.endsFlow i.normalize.op = Simulate.endsFlow i.op := by
  unfold normalize
  split
  · next long v h =>
    obtain ⟨hnormal, hflow, -⟩ := Opcode.normal_of_implied? h
    exact ⟨hnormal, hflow⟩
  · next himplied =>
    split
    · next long h => exact Opcode.normal_of_longForm? h
    · next hlong =>
      refine ⟨?_, rfl⟩
      rw [Opcode.isNormal, himplied, hlong]
      rfl

theorem operand_of_decode {code : List UInt8} {offset : Nat} {i : Instruction}
    (h : decode code offset = .ok i) (hkind : i.op.operand = .none) : i.operand = .none := by
  obtain ⟨w, -, -, hfits, rfl, -⟩ := encode_of_decode h
  have hkind : w.op.operand = .none := hkind
  show w.operand.shown w.op.operand = .none
  rw [fits, hkind] at hfits
  rw [hkind, Operand.shown_of_ne (by decide)]
  unfold Operand.fits at hfits
  split at hfits <;> simp_all [OperandKind.isToken]

/-- A decoded instruction leads where its normal form leads. -/
theorem places_normalize {code : List UInt8} {offset : Nat} {i : Instruction}
    (h : decode code offset = .ok i) : i.normalize.operand.places = i.operand.places := by
  unfold normalize
  split
  · -- The operand becomes a number, and there was none before: neither leads anywhere.
    next long v himplied =>
    obtain ⟨-, -, hkind⟩ := Opcode.normal_of_implied? himplied
    rw [operand_of_decode h hkind]
    rfl
  · split <;> rfl

end Instruction

/-! ## Marks -/

namespace Instruction

/-- The instructions are those of the code from an offset on, up to its end. -/
def Swept (code : List UInt8) : (offset : Nat) → List Instruction → Prop
  | offset, [] => code.length ≤ offset
  | offset, i :: rest => decode code offset = .ok i ∧ Swept code i.next rest

theorem swept_sweep (code : List UInt8) (offset : Nat) :
    (sweep code offset).2 = none → Swept code offset (sweep code offset).1 := by
  fun_induction sweep code offset with
  | case1 offset hin f hdecode => exact fun h => absurd h (Option.some_ne_none f)
  | case2 offset hin i hdecode hlt rest fault hrest ih =>
    intro h
    rw [hrest] at ih
    exact ⟨hdecode, ih h⟩
  | case3 offset hin i hdecode hlt => exact absurd (decode_ok hdecode).2.1 hlt
  | case4 offset hout => exact fun _ => Nat.not_lt.mp hout

theorem swept_of_sweepAll {code : List UInt8} {is : List Instruction}
    (h : sweepAll code = .ok is) : Swept code 0 is := by
  have hswept := swept_sweep code 0
  unfold sweepAll at h
  split at h
  · next is' hsweep =>
    cases h
    rw [hsweep] at hswept
    exact hswept rfl
  · cases h

theorem sweep_of_swept {code : List UInt8} : ∀ {is : List Instruction} {offset : Nat},
    Swept code offset is → sweep code offset = (is, none) := by
  intro is
  induction is with
  | nil =>
    intro offset hend
    rw [sweep, if_neg (Nat.not_lt.mpr hend)]
  | cons i rest ih =>
    rintro offset ⟨hdecode, hrest⟩
    obtain ⟨-, hnext, hin⟩ := decode_ok hdecode
    rw [sweep, if_pos hin, hdecode]
    simp only [hnext, dite_true, ih hrest]

theorem sweepAll_of_swept {code : List UInt8} {is : List Instruction} (h : Swept code 0 is) :
    sweepAll code = .ok is := by
  rw [sweepAll, sweep_of_swept h]

/-- The marks of a code: where its instructions start, and its end. -/
def marks (code : List UInt8) (is : List Instruction) : List Nat :=
  is.map (·.offset) ++ [code.length]

theorem le_marks {code : List UInt8} : ∀ {is : List Instruction} {offset : Nat},
    Swept code offset is → ∀ m ∈ marks code is, offset ≤ m ∨ m = code.length := by
  intro is
  induction is with
  | nil =>
    intro offset _ m hm
    exact Or.inr (List.mem_singleton.mp hm)
  | cons i rest ih =>
    rintro offset ⟨hdecode, hrest⟩ m hm
    obtain ⟨hoffset, hnext, -⟩ := decode_ok hdecode
    rcases List.mem_cons.mp hm with rfl | hm
    · exact Or.inl hoffset.ge
    · exact (ih hrest m hm).imp (by omega) id

/-- **Marks grow.** -/
theorem sortedLT_marks {code : List UInt8} : ∀ {is : List Instruction} {offset : Nat},
    Swept code offset is → (marks code is).SortedLT := by
  intro is
  induction is with
  | nil =>
    intro offset _
    exact (List.pairwise_singleton _ _).sortedLT
  | cons i rest ih =>
    rintro offset ⟨hdecode, hrest⟩
    obtain ⟨hoffset, hnext, hin⟩ := decode_ok hdecode
    refine (List.pairwise_cons.mpr ⟨fun m hm => ?_, (ih hrest).pairwise⟩).sortedLT
    show i.offset < m
    have hle := le_marks hrest m hm
    omega

end Instruction

/-- Two places are at the same position among the marks of their codes. -/
def Corresponds (ms ns : List Nat) (p q : Nat) : Prop :=
  ∃ k : Nat, ms[k]? = some p ∧ ns[k]? = some q

/-- Marks that grow are in the same order. -/
theorem keepsOrder_corresponds {ms ns : List Nat} (hms : ms.SortedLT) (hns : ns.SortedLT) :
    KeepsOrder (Corresponds ms ns) := by
  have hlt : ∀ {l : List Nat}, l.SortedLT → ∀ {j k p p' : Nat}, l[j]? = some p → l[k]? = some p' →
      (p < p' ↔ j < k) := by
    intro l hl j k p p' hp hp'
    obtain ⟨hj, rfl⟩ := List.getElem?_eq_some_iff.mp hp
    obtain ⟨hk, rfl⟩ := List.getElem?_eq_some_iff.mp hp'
    exact hl.getElem_lt_getElem_iff
  rintro p q p' q' ⟨j, hp, hq⟩ ⟨k, hp', hq'⟩
  rw [hlt hms hp hp', hlt hns hq hq']

/-! ## Two forms of one code -/

section Forms

variable {R : Nat → Nat → Prop}

/-- The second instruction is the normal form of the first but for the places it names, which are
related. -/
structure Instruction.LongForm (R : Nat → Nat → Prop) (i j : Instruction) : Prop where
  op : j.op = i.normalize.op
  operand : i.normalize.operand.Alike R j.operand

/-- The same handler at related places. -/
structure Clause.Alike (R : Nat → Nat → Prop) (c d : Clause) : Prop where
  kind : d.kind = c.kind
  classToken : d.classToken = c.classToken
  handler : PlacesAlike R c.handlerOffset d.handlerOffset
  filter : c.kind = some .filter → PlacesAlike R c.filterOffset d.filterOffset

namespace Instruction.LongForm

variable {i j : Instruction}

/-- The long form is normal, so its effect is that of the same operation. -/
theorem alike (h : LongForm R i j) (hoffset : R i.offset j.offset) :
    i.normalize.Alike R j.normalize := by
  have hnormal : j.normalize = j := normalize_of_normal (by rw [h.op, i.normalize_normal.1])
  rw [hnormal]
  exact ⟨by rwa [Simulate.normalize_offset], h.op, h.operand⟩

theorem endsFlow_eq (h : LongForm R i j) : Simulate.endsFlow j.op = Simulate.endsFlow i.op := by
  rw [h.op, i.normalize_normal.2]

theorem places (h : LongForm R i j) {code : List UInt8} {offset : Nat}
    (hdecode : decode code offset = .ok i) :
    List.Forall₂ (PlacesAlike R) i.operand.places j.operand.places := by
  rw [← places_normalize hdecode]
  exact h.operand.places

end Instruction.LongForm

/-- Handlers at related places start at related places. -/
theorem HandlerMap.ofClauses_alike {cs ds : List Clause} (h : List.Forall₂ (Clause.Alike R) cs ds) :
    (ofClauses cs).Alike R (ofClauses ds) := by
  refine List.rel_flatMap (List.forall₂_reverse_iff.mpr h) fun c d hcd => ?_
  have hhandler : HandlerMap.Alike R [(c.handlerOffset, ⟨c.kind, c.classToken⟩)]
      [(d.handlerOffset, ⟨d.kind, d.classToken⟩)] :=
    .cons ⟨hcd.handler, by rw [hcd.kind, hcd.classToken]⟩ .nil
  unfold entriesOf
  rw [hcd.kind] at hhandler ⊢
  refine List.rel_append ?_ hhandler
  split
  · next hfilter => exact .cons ⟨hcd.filter hfilter, rfl⟩ .nil
  · exact .nil

/-- The second code is the first without short forms: instruction by instruction the normal form,
with places moved along with the marks. -/
structure SameInLongForm (code₁ code₂ : List UInt8) (is js : List Instruction) : Prop where
  first : Instruction.sweepAll code₁ = .ok is
  second : Instruction.sweepAll code₂ = .ok js
  each : List.Forall₂ (Instruction.LongForm (Corresponds (Instruction.marks code₁ is)
    (Instruction.marks code₂ js))) is js

end Forms

/-! ## Walking abreast -/

/-- A cursor on the `n`-th instruction of a code, or before the first if `n` is zero. -/
structure Cursor.At (code : List UInt8) (is : List Instruction) (n : Nat) (c : Cursor) : Prop where
  ahead : Instruction.Swept code c.nextOffset (is.drop n)
  started : c.started = decide (0 < n)
  current : 0 < n → is[n - 1]? = some c.current

/-- The bytes that come next are an instruction, with others behind it up to the end. -/
structure Cursor.Reads (c : Cursor) (i : Instruction) (rest : List Instruction) : Prop where
  decoded : Instruction.decode c.code c.nextOffset = .ok i
  ahead : Instruction.Swept c.code i.next rest

namespace Cursor

variable {code : List UInt8} {is : List Instruction} {n : Nat} {c d : Cursor}

theorem At.congr (h : c.At code is n) (hnext : d.nextOffset = c.nextOffset)
    (hstarted : d.started = c.started) (hcurrent : d.current = c.current) : d.At code is n :=
  ⟨hnext ▸ h.ahead, hstarted ▸ h.started, hcurrent ▸ h.current⟩

/-- Either all instructions are behind the cursor, and so is the code, or there is a next one. -/
theorem At.rest (h : c.At c.code is n) : (is.length ≤ n ∧ c.code.length ≤ c.nextOffset)
    ∨ ∃ i, is[n]? = some i ∧ c.Reads i (is.drop (n + 1)) := by
  have hahead := h.ahead
  by_cases hn : n < is.length
  · rw [List.drop_eq_getElem_cons hn] at hahead
    exact Or.inr ⟨is[n], List.getElem?_eq_getElem hn, hahead.1, hahead.2⟩
  · rw [List.drop_eq_nil_of_le (by omega)] at hahead
    exact Or.inl ⟨by omega, hahead⟩

/-- A cursor with an instruction to come arrives there once the current one has been run. -/
theorem Reads.next_eq {i : Instruction} {rest : List Instruction} (h : c.Reads i rest)
    {s s' : Simulation} (hs : c.simulation = some s) (hf : c.fault = none) (he : c.ended = false)
    (hsettled : c.Settled s s') : c.next = (true, (c.withSimulation s').arrive i) := by
  obtain ⟨-, -, hin⟩ := Instruction.decode_ok h.decoded
  rw [next_of_settled hs hf he hsettled, if_neg (Nat.not_le.mpr hin), h.decoded]

theorem Reads.at {i : Instruction} (h : c.Reads i (is.drop (n + 1))) (hi : is[n]? = some i)
    (s : Simulation) : ((c.withSimulation s).arrive i).At c.code is (n + 1) :=
  ⟨h.ahead, rfl, fun _ => hi⟩

end Cursor

/-- Two cursors that show the same: the same instruction by its position, stacks that differ only in
the places of their slots, and one has stopped, or failed, if the other has. -/
structure Cursor.Abreast (R : Nat → Nat → Prop) (is js : List Instruction) (c d : Cursor) :
    Prop where
  ended : d.ended = c.ended
  failed : d.fault.isSome = c.fault.isSome
  started : d.started = c.started
  position : c.started = true → ∃ n : Nat, is[n]? = some c.current ∧ js[n]? = some d.current
  stack : List.Forall₂ (Slot.Alike R) c.stack d.stack

/-- Two routes over the same code in two forms. -/
structure Twins (r₁ r₂ : Route) (is js : List Instruction) : Prop where
  image : r₂.image = r₁.image
  args : r₂.args = r₁.args
  locals : r₂.locals = r₁.locals
  forms : SameInLongForm r₁.code r₂.code is js
  handlers : r₁.handlers.Alike (Corresponds (Instruction.marks r₁.code is)
    (Instruction.marks r₂.code js)) r₂.handlers

namespace Twins

variable {r₁ r₂ : Route} {is js : List Instruction}

/-- The places of the two codes that belong together. -/
abbrev Places (_ : Twins r₁ r₂ is js) : Nat → Nat → Prop :=
  Corresponds (Instruction.marks r₁.code is) (Instruction.marks r₂.code js)

theorem keepsOrder (h : Twins r₁ r₂ is js) : KeepsOrder h.Places :=
  keepsOrder_corresponds
    (Instruction.sortedLT_marks (Instruction.swept_of_sweepAll h.forms.first))
    (Instruction.sortedLT_marks (Instruction.swept_of_sweepAll h.forms.second))

/-- Instructions at the same position belong together. -/
theorem at_position (h : Twins r₁ r₂ is js) {n : Nat} {i j : Instruction} (hi : is[n]? = some i)
    (hj : js[n]? = some j) : h.Places i.offset j.offset ∧ i.LongForm h.Places j := by
  have hmark : ∀ {code : List UInt8} {is : List Instruction} {i : Instruction}, is[n]? = some i →
      (Instruction.marks code is)[n]? = some i.offset := by
    intro code is i hi
    obtain ⟨hn, -⟩ := List.getElem?_eq_some_iff.mp hi
    rw [Instruction.marks, List.getElem?_append_left (by rwa [List.length_map]), List.getElem?_map,
      hi, Option.map_some]
  refine ⟨⟨n, hmark hi, hmark hj⟩, ?_⟩
  obtain ⟨hn, rfl⟩ := List.getElem?_eq_some_iff.mp hi
  obtain ⟨hn', rfl⟩ := List.getElem?_eq_some_iff.mp hj
  exact (List.forall₂_iff_get.mp h.forms.each).2 n hn hn'

/-- What is kept while both walks make the same number of moves. -/
structure Pace (h : Twins r₁ r₂ is js) (k n : Nat) : Prop where
  first : Cursor.At r₁.code is n (r₁.cursor k)
  second : Cursor.At r₂.code js n (r₂.cursor k)
  ended : (r₂.cursor k).ended = (r₁.cursor k).ended
  failed : (r₂.cursor k).fault.isSome = (r₁.cursor k).fault.isSome
  simulations : (r₁.sim k).Alike h.Places (r₂.sim k)

variable {h : Twins r₁ r₂ is js} {k n : Nat}

theorem length_eq (h : Twins r₁ r₂ is js) : js.length = is.length := h.forms.each.length_eq.symm

/-- The current instructions are run alike: both fail, or both settle. -/
theorem Pace.settles (hp : h.Pace k n) :
    (∃ e f s' t', (r₁.cursor k).started = true ∧ (r₂.cursor k).started = true
        ∧ Simulate.run (r₁.cursor k).image (r₁.cursor k).current (r₁.sim k) = .error e s'
        ∧ Simulate.run (r₂.cursor k).image (r₂.cursor k).current (r₂.sim k) = .error f t'
        ∧ s'.Alike h.Places t')
      ∨ ∃ s' t', (r₁.cursor k).Settled (r₁.sim k) s' ∧ (r₂.cursor k).Settled (r₂.sim k) t'
          ∧ s'.Alike h.Places t' := by
  have hstarted := hp.first.started
  have hstarted' := hp.second.started
  by_cases hn : 0 < n
  · rw [decide_eq_true hn] at hstarted hstarted'
    obtain ⟨hplace, hform⟩ := h.at_position (hp.first.current hn) (hp.second.current hn)
    obtain ⟨hdecode, -⟩ := (r₁.position k).1 hstarted
    have himage : (r₂.cursor k).image = (r₁.cursor k).image := by
      rw [(r₂.carries_cursor k).image, (r₁.carries_cursor k).image, h.image]
    have hrun := Simulate.run_alike_at h.keepsOrder (hform.alike hplace) (hform.places hdecode)
      hform.endsFlow_eq (r₁.cursor k).image (r₁.sim k) (r₂.sim k) hp.simulations
    rw [himage]
    rcases hrun.ok_or_error with ⟨_, _, s', t', hs, ht, -, hst⟩ | ⟨e, f, s', t', hs, ht, hst⟩
    · rw [← himage] at ht
      exact Or.inr ⟨s', t', Or.inr ⟨hstarted, hs⟩, Or.inr ⟨hstarted', ht⟩, hst⟩
    · exact Or.inl ⟨e, f, s', t', hstarted, hstarted', hs, ht, hst⟩
  · -- Before the first instruction there is nothing to run.
    rw [decide_eq_false hn] at hstarted hstarted'
    exact Or.inr ⟨_, _, Or.inl ⟨hstarted, rfl⟩, Or.inl ⟨hstarted', rfl⟩, hp.simulations⟩

theorem Pace.live_iff (hp : h.Pace k n) :
    ((r₂.cursor k).fault = none ∧ (r₂.cursor k).ended = false)
      ↔ ((r₁.cursor k).fault = none ∧ (r₁.cursor k).ended = false) := by
  rw [← Option.not_isSome_iff_eq_none, ← Option.not_isSome_iff_eq_none, hp.failed, hp.ended]

/-- Both codes end at the same position, or both go on with an instruction. -/
theorem Pace.rest (hp : h.Pace k n) :
    ((r₁.cursor k).code.length ≤ (r₁.cursor k).nextOffset
        ∧ (r₂.cursor k).code.length ≤ (r₂.cursor k).nextOffset)
      ∨ ∃ i j, is[n]? = some i ∧ js[n]? = some j ∧ (r₁.cursor k).Reads i (is.drop (n + 1))
          ∧ (r₂.cursor k).Reads j (js.drop (n + 1)) := by
  have hfirst := hp.first
  have hsecond := hp.second
  rw [← (r₁.carries_cursor k).code] at hfirst
  rw [← (r₂.carries_cursor k).code] at hsecond
  rcases hfirst.rest with ⟨hn, hend⟩ | ⟨i, hi, hreads⟩
  · rcases hsecond.rest with ⟨-, hend'⟩ | ⟨j, hj, -⟩
    · exact Or.inl ⟨hend, hend'⟩
    · obtain ⟨hn', -⟩ := List.getElem?_eq_some_iff.mp hj
      rw [h.length_eq] at hn'
      omega
  · rcases hsecond.rest with ⟨hn, -⟩ | ⟨j, hj, hreads'⟩
    · obtain ⟨hn', -⟩ := List.getElem?_eq_some_iff.mp hi
      rw [h.length_eq] at hn
      omega
    · exact Or.inr ⟨i, j, hi, hj, hreads, hreads'⟩

/-- Where a move leads both walks. -/
theorem Pace.of_next {m : Nat} {c d : Cursor} {s t : Simulation}
    (hc : (r₁.cursor k).next.2 = c) (hd : (r₂.cursor k).next.2 = d) (hs : c.simulation = some s)
    (ht : d.simulation = some t) (first : c.At r₁.code is m) (second : d.At r₂.code js m)
    (ended : d.ended = c.ended) (failed : d.fault.isSome = c.fault.isSome)
    (hst : s.Alike h.Places t) : h.Pace (k + 1) m := by
  subst hc hd
  refine ⟨first, second, ended, failed, ?_⟩
  rw [Route.sim, Route.sim, Route.cursor, Route.cursor, hs, ht]
  exact hst

/-- **One move** keeps the walks abreast: both stay, both fail, both end, or both arrive at their
next instructions. -/
theorem Pace.succ (hp : h.Pace k n) : ∃ m, h.Pace (k + 1) m := by
  have hc := r₁.carries_cursor k
  have hd := r₂.carries_cursor k
  by_cases hlive : (r₁.cursor k).fault = none ∧ (r₁.cursor k).ended = false
  · have hlive' := hp.live_iff.mpr hlive
    -- A walk looks at what comes next only when the instruction it stands on has been run, so a
    -- fault there comes before everything else.
    rcases hp.settles with ⟨e, f, s, t, hstarted, hstarted', hs, ht, hst⟩ | ⟨s, t, hs, ht, hst⟩
    · have hnext := Cursor.next_of_error hc.simulation hlive.1 hlive.2 hstarted hs
      have hnext' := Cursor.next_of_error hd.simulation hlive'.1 hlive'.2 hstarted' ht
      exact ⟨n, Pace.of_next (congrArg Prod.snd hnext) (congrArg Prod.snd hnext') rfl rfl
        (hp.first.congr rfl rfl rfl) (hp.second.congr rfl rfl rfl) hp.ended rfl hst⟩
    · rcases hp.rest with ⟨hend, hend'⟩ | ⟨i, j, hi, hj, hreads, hreads'⟩
      · have hnext := Cursor.next_of_settled hc.simulation hlive.1 hlive.2 hs
        have hnext' := Cursor.next_of_settled hd.simulation hlive'.1 hlive'.2 ht
        rw [if_pos hend] at hnext
        rw [if_pos hend'] at hnext'
        exact ⟨n, Pace.of_next (congrArg Prod.snd hnext) (congrArg Prod.snd hnext') rfl rfl
          (hp.first.congr rfl rfl rfl) (hp.second.congr rfl rfl rfl) rfl hp.failed hst⟩
      · have hnext := hreads.next_eq hc.simulation hlive.1 hlive.2 hs
        have hnext' := hreads'.next_eq hd.simulation hlive'.1 hlive'.2 ht
        refine ⟨n + 1, Pace.of_next (congrArg Prod.snd hnext) (congrArg Prod.snd hnext') rfl rfl
          (hc.code ▸ hreads.at hi s) (hd.code ▸ hreads'.at hj t) hp.ended hp.failed ?_⟩
        show (s.enter (r₁.cursor k).image (r₁.cursor k).handlers i.offset).Alike h.Places
          (t.enter (r₂.cursor k).image (r₂.cursor k).handlers j.offset)
        rw [hc.image, hd.image, hc.handlers, hd.handlers, h.image]
        exact Simulation.enter_alike h.keepsOrder h.handlers (h.at_position hi hj).1 _ hst
  · have hnext := Cursor.next_stopped hlive
    have hnext' := Cursor.next_stopped (mt hp.live_iff.mp hlive)
    exact ⟨n, Pace.of_next (congrArg Prod.snd hnext) (congrArg Prod.snd hnext') hc.simulation
      hd.simulation hp.first hp.second hp.ended hp.failed hp.simulations⟩

/-- **All moves**, by induction: the walks stay abreast. -/
theorem pace (h : Twins r₁ r₂ is js) (k : Nat) : ∃ n, h.Pace k n := by
  induction k with
  | zero =>
    refine ⟨0, ⟨Instruction.swept_of_sweepAll h.forms.first, rfl, fun hn => absurd hn (by omega)⟩,
      ⟨Instruction.swept_of_sweepAll h.forms.second, rfl, fun hn => absurd hn (by omega)⟩, rfl, rfl,
      h.args, h.locals, rfl, .nil, fun p q _ => .none⟩
  | succ k ih =>
    obtain ⟨n, hp⟩ := ih
    exact hp.succ

theorem abreast (h : Twins r₁ r₂ is js) (k : Nat) :
    (r₁.cursor k).Abreast h.Places is js (r₂.cursor k) := by
  obtain ⟨n, hp⟩ := h.pace k
  refine ⟨hp.ended, hp.failed, by rw [hp.first.started, hp.second.started], fun hstarted => ?_, ?_⟩
  · rw [hp.first.started, decide_eq_true_eq] at hstarted
    exact ⟨n - 1, hp.first.current hstarted, hp.second.current hstarted⟩
  · rw [Cursor.stack, Cursor.stack, (r₁.carries_cursor k).simulation,
      (r₂.carries_cursor k).simulation]
    exact List.forall₂_reverse_iff.mpr hp.simulations.slots

end Twins

/-- **The stack does not depend on short forms.** Let the second code be the first in long form,
with the places of jumps and handlers moved along, and let both be walked with the same image and
the same variables. After any number of moves both walks stand on instructions at the same
position, their stacks differ in nothing but the places of the slots, which belong together, and if
one has failed or come to the end of its code, so has the other. -/
theorem walks_abreast_in_long_form {code₁ code₂ : List UInt8} {is js : List Instruction}
    (hforms : SameInLongForm code₁ code₂ is js) {clauses₁ clauses₂ : List Clause}
    (hclauses : List.Forall₂ (Clause.Alike (Corresponds (Instruction.marks code₁ is)
      (Instruction.marks code₂ js))) clauses₁ clauses₂)
    (image : Option Image) (args locals : List TypeSig) (k : Nat) :
    ((Route.mk image code₁ (.ofClauses clauses₁) args locals).cursor k).Abreast
      (Corresponds (Instruction.marks code₁ is) (Instruction.marks code₂ js)) is js
      ((Route.mk image code₂ (.ofClauses clauses₂) args locals).cursor k) := by
  have htwins : Twins ⟨image, code₁, .ofClauses clauses₁, args, locals⟩
      ⟨image, code₂, .ofClauses clauses₂, args, locals⟩ is js :=
    ⟨rfl, rfl, rfl, hforms, HandlerMap.ofClauses_alike hclauses⟩
  exact htwins.abreast k

/-- Two constants, a short jump on one of them to a handler that pops and returns. -/
def shortJump : List UInt8 := [0x16, 0x17, 0x2D, 0x00, 0x26, 0x2A]

/-- The same without short forms. -/
def longJump : List UInt8 :=
  [0x20, 0, 0, 0, 0, 0x20, 1, 0, 0, 0, 0x3A, 0, 0, 0, 0, 0x26, 0x2A]

theorem walks_abreast_in_long_form_jump :
    ∃ is js : List Instruction, SameInLongForm shortJump longJump is js
      ∧ ((Route.mk none shortJump (.ofClauses [⟨some .catch, 0, 4, 4, 2, Token.null, 0⟩])
          [] []).cursor 4).Abreast
        (Corresponds (Instruction.marks shortJump is) (Instruction.marks longJump js)) is js
        ((Route.mk none longJump (.ofClauses [⟨some .catch, 0, 15, 15, 2, Token.null, 0⟩])
          [] []).cursor 4) := by
  have hfirst : Instruction.sweepAll shortJump = .ok [⟨0, .ldcI40, 1, .none⟩,
      ⟨1, .ldcI41, 1, .none⟩, ⟨2, .brtrueS, 2, .target 4⟩, ⟨4, .pop, 1, .none⟩,
      ⟨5, .ret, 1, .none⟩] :=
    Instruction.sweepAll_of_swept ⟨rfl, rfl, rfl, rfl, rfl, Nat.le_refl 6⟩
  have hsecond : Instruction.sweepAll longJump = .ok [⟨0, .ldcI4, 5, .int 0⟩,
      ⟨5, .ldcI4, 5, .int 1⟩, ⟨10, .brtrue, 5, .target 15⟩, ⟨15, .pop, 1, .none⟩,
      ⟨16, .ret, 1, .none⟩] :=
    Instruction.sweepAll_of_swept ⟨rfl, rfl, rfl, rfl, rfl, Nat.le_refl 17⟩
  have hhandler : PlacesAlike (Corresponds [0, 1, 2, 4, 5, 6] [0, 5, 10, 15, 16, 17]) 4 15 :=
    ⟨4, 15, rfl, rfl, 3, rfl, rfl⟩
  have hforms : SameInLongForm shortJump longJump _ _ := ⟨hfirst, hsecond,
    .cons ⟨rfl, rfl⟩ (.cons ⟨rfl, rfl⟩ (.cons ⟨rfl, hhandler⟩ (.cons ⟨rfl, rfl⟩
      (.cons ⟨rfl, rfl⟩ .nil))))⟩
  have hclause : Clause.Alike (Corresponds [0, 1, 2, 4, 5, 6] [0, 5, 10, 15, 16, 17])
      ⟨some .catch, 0, 4, 4, 2, Token.null, 0⟩ ⟨some .catch, 0, 15, 15, 2, Token.null, 0⟩ :=
    ⟨rfl, rfl, hhandler, fun hfilter => by cases hfilter⟩
  exact ⟨_, _, hforms, walks_abreast_in_long_form hforms (.cons hclause .nil) none [] [] 4⟩

end ManagedImage
