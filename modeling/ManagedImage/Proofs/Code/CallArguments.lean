/-
The arguments of calls.

Looking for the arguments of a call is a way there and a way back: to the start of the statement,
forward to the call with the beginnings beside the stack, to the start of the statement again and
forward once more. On the walk both ways forward are made of the same moves (`Cursor.advance`).

The way back ends where the way there began, and the cursor is the one from before but for the
note of its last instruction. Only what is kept for later places could tell: but everything that
is left on the way was left before (`Retraces.next`), and a stack for a place that has one is not
kept again.
-/
import ManagedImage.Proofs.Code.Classification
import ManagedImage.Proofs.Code.Origins
import ManagedImage.Proofs.Code.Observation

set_option autoImplicit false

namespace ManagedImage

/-! ## The same way again -/

namespace Simulation

/-- Jumps to places that have a stack leave none. -/
theorem foldl_keep_of_kept {source : Nat} {places : List Int} {s : Simulation}
    (h : ∀ q : Nat, source < q → (q : Int) ∈ places → (s.snapshot? q).isSome = true) :
    places.foldl (keep source) s = s := by
  induction places with
  | nil => rfl
  | cons place places ih =>
    have hkeep : keep source s place = s := by
      unfold keep
      by_cases hle : place ≤ source
      · rw [if_pos hle]
      · have hcast : (place.toNat : Int) = place := by omega
        have hin : ((place.toNat : Nat) : Int) ∈ place :: places := by
          rw [hcast]
          exact List.mem_cons_self
        rw [if_neg hle, if_pos (h place.toNat (by omega) hin)]
    rw [List.foldl_cons, hkeep]
    exact ih fun q hq hmem => h q hq (List.mem_cons_of_mem _ hmem)

end Simulation

theorem Simulate.snapshots_of_run {image : Option Image} {i : Instruction} {s s' : Simulation}
    (h : run image i s = .ok () s')
    (hkept : ∀ q : Nat, i.offset < q → (q : Int) ∈ i.operand.places →
      (s.snapshot? q).isSome = true) : s'.snapshots = s.snapshots := by
  have hfailed := effect_failed image i s
  obtain ⟨t, heffect, rfl⟩ := effect_of_run h
  rw [heffect] at hfailed
  have hsnapshots : t.snapshots = s.snapshots := hfailed.snapshots
  rw [afterEffect, Simulation.foldl_keep_of_kept]
  · exact hsnapshots
  · intro q hq hmem
    rw [Simulation.snapshot?, hsnapshots]
    exact hkept q hq hmem

namespace Cursor

/-- The cursor `c` is on the way back to `e`: it knows the same jump targets, and nothing has been
kept for a later place. -/
structure Retraces (e c : Cursor) : Prop where
  targets : c.targets = e.targets
  marked : c.Marked
  kept : ∃ s t, e.simulation = some s ∧ c.simulation = some t ∧ t.snapshots = s.snapshots

variable {c e : Cursor}

/-- An instruction is entered without keeping anything; what was run before has to have kept
nothing either. -/
theorem Retraces.arrive {t t' : Simulation} (h : e.Retraces c) (hs : c.simulation = some t)
    (hkept : t'.snapshots = t.snapshots) (i : Instruction) :
    e.Retraces ((c.withSimulation t').arrive i) := by
  obtain ⟨a, b, ha, hb, hab⟩ := h.kept
  obtain rfl : b = t := Option.some.inj (hb.symm.trans hs)
  exact ⟨h.targets, marked_arrive _ i, a, _, ha, rfl, hkept.trans hab⟩

/-- A rewind keeps nothing. -/
theorem Retraces.rewind {d : Cursor} {p : Nat} (h : e.Retraces c)
    (hd : Move.rewind p c = .ok () d) : e.Retraces d := by
  obtain ⟨s, t, hs, ht, hst⟩ := h.kept
  rw [Route.rewind_eq ht] at hd
  have hback : e.Retraces (Route.rewound c t p) :=
    ⟨h.targets, marked_of_not_started rfl, s, _, hs, rfl, hst⟩
  rcases next_rests_or_arrives (c := Route.rewound c t p) rfl with
    ⟨hrest, -⟩ | ⟨t', i, -, -, hsettled, -, hnext⟩
  · obtain ⟨f, hf⟩ := Route.stopped_eq Unit p (Route.rewound c t p).next.2
    rw [show (Route.rewound c t p).next = (false, (Route.rewound c t p).next.2) from
      Prod.ext hrest rfl] at hd
    simp only [hf, reduceCtorEq] at hd
  · rw [hnext] at hd
    rw [← (EStateM.Result.ok.inj hd).2]
    -- Nothing is run before the first instruction.
    have hsame := hsettled.eq_of_not_started rfl
    exact hback.arrive rfl (congrArg Simulation.snapshots hsame) i

end Cursor

namespace Route

variable {r : Route}

/-- **A move on the way back keeps nothing new**: the walk has kept it at the end of the way. -/
theorem retraces_next {j k : Nat} {c e : Cursor} (hc : r.Tracks j c) (he : r.Tracks k e)
    (hj : r.Landed j) (hk : r.Landed k) (hjk : j < k) (h : e.Retraces c) :
    e.Retraces c.next.2 := by
  have hsucc : r.Landed (j + 1) := hk.of_le (by omega) hjk
  have hmoved := hc.next.1.mpr hsucc
  obtain ⟨t, ht, -⟩ := hc
  obtain ⟨u, hu, -⟩ := he
  obtain ⟨a, b, ha, hb, hab⟩ := id h.kept
  obtain rfl : a = u := Option.some.inj (ha.symm.trans hu.carries.simulation)
  obtain rfl : b = t := Option.some.inj (hb.symm.trans ht.carries.simulation)
  rcases Cursor.next_rests_or_arrives hb with ⟨hrest, -⟩ | ⟨t', i, -, -, hsettled, -, hnext⟩
  · rw [hmoved] at hrest
    cases hrest
  · rw [hnext]
    apply h.arrive hb
    rcases hsettled with ⟨-, rfl⟩ | ⟨-, hrun⟩
    · rfl
    · apply Simulate.snapshots_of_run hrun
      intro q hq hmem
      -- The walk runs the same instruction, and has a stack for `q` afterwards.
      obtain ⟨s', i', harr⟩ := hsucc.arrival
      have hran := harr.settled.ran hj.started
      rw [ht.same.current] at hq hmem
      have hkept : ((r.sim (j + 1)).snapshot? q).isSome = true := by
        rw [harr.sim]
        show (s'.snapshot? q).isSome = true
        rw [hran.snapshot q, if_pos ⟨hq, hmem⟩]
        cases (r.sim j).snapshot? q <;> rfl
      obtain ⟨slots, hslots⟩ := Option.isSome_iff_exists.mp hkept
      have hend := hu.matched.kept q not_false slots (snapshot?_mono hjk hslots)
      rw [Simulation.snapshot?] at hend ⊢
      rw [hab, hend]
      rfl

/-- The whole way forward keeps nothing new. -/
theorem retraces_advance {k : Nat} {e : Cursor} (he : r.Tracks k e) (hk : r.Landed k) (n : Nat) :
    ∀ {j : Nat} {c : Cursor}, r.Tracks j c → r.Landed j → j + n ≤ k → e.Retraces c →
      e.Retraces (c.advance n) := by
  induction n with
  | zero => exact fun _ _ _ h => h
  | succ n ih =>
    intro j c hc hj hle h
    exact ih hc.next.2 (hk.of_le (by omega) (by omega)) (by omega)
      (retraces_next hc he hj hk (by omega) h)

/-- **Back at the same point of the walk**, having kept nothing, the cursor is the one from before
but for the note of its last instruction. -/
theorem agrees_of_retraces {k : Nat} {d e : Cursor} (he : r.Tracks k e) (hk : r.Landed k)
    (hmarked : e.Marked) (hd : r.Tracks k d) (h : e.Retraces d) : e.Agrees d := by
  obtain ⟨s, hs, hstart⟩ := he
  obtain ⟨t, ht, hstart'⟩ := hd
  obtain ⟨a, b, ha, hb, hab⟩ := h.kept
  obtain rfl : a = s := Option.some.inj (ha.symm.trans hs.carries.simulation)
  obtain rfl : b = t := Option.some.inj (hb.symm.trans ht.carries.simulation)
  have hcurrent := ht.same.current.trans hs.same.current.symm
  have hon : d.onTarget = e.onTarget := by
    rw [h.marked (ht.same.started.trans hk.started), hmarked (hs.same.started.trans hk.started),
      Cursor.isTarget, Cursor.isTarget, h.targets, hcurrent]
  have hbare : b.bare = a.bare := by
    have hargs := ht.matched.args.trans hs.matched.args.symm
    have hlocals := ht.matched.locals.trans hs.matched.locals.symm
    have hslots := ht.matched.slots.trans hs.matched.slots.symm
    have hdead := ht.matched.dead.trans hs.matched.dead.symm
    simp only [Simulation.bare, hargs, hlocals, hslots, hdead, hab, hstart, hstart']
  refine ⟨⟨a, b, ha, ?_, hbare⟩, hmarked⟩
  have himage := ht.carries.image.trans hs.carries.image.symm
  have hcode := ht.carries.code.trans hs.carries.code.symm
  have hhandlers := ht.carries.handlers.trans hs.carries.handlers.symm
  have hstarted := ht.same.started.trans hs.same.started.symm
  have hended := ht.same.ended.trans hs.same.ended.symm
  have hnext := ht.same.nextOffset.trans hs.same.nextOffset.symm
  have hfault := ht.same.fault.trans hs.same.fault.symm
  have htargets := h.targets
  cases d
  cases e
  simp only at himage hcode hhandlers htargets hcurrent hstarted hended hnext hfault hon hb
  simp only [Cursor.withSimulation, himage, hcode, hhandlers, htargets, hcurrent, hstarted, hended,
    hnext, hfault, hon, hb]

/-! ## There and back -/

theorem Reentry.found {j p : Nat} (h : r.Reentry j p) : r.Found p j (Move.sources (r.sim j)) := by
  refine ⟨begins_sources h.landed.ordered.slots, ?_⟩
  intro k hjk hs b hb
  -- Without a handler nothing is on the stack where a statement starts.
  have hhandler := hs.unhandled j h.landed (Nat.le_of_eq h.place.symm) hjk
  rw [h.place] at hhandler
  rw [Move.sources, h.slots, reentrySlots, hhandler] at hb
  exact absurd hb (Nat.not_lt_zero b)

end Route

/-- The arguments that are found from the statement that starts at `first`, or nothing if a beginning
is asked for that is not there. -/
def Move.argumentsFrom? (first call left args extra : Nat) : Move (Option (List Nat)) := do
  rewind first
  let origins ← originsTo? call left (some (sources (← requireSimulation)))
  return origins.bind fun found =>
    if found.length < extra + args then none else some ((found.drop extra).take args).reverse

namespace Route

variable {r : Route}

/-- **There and back.** -/
theorem Tracks.lookBack {k args extra : Nat} {e : Cursor} {s : Simulation} (h : r.Tracks k e)
    (hk : r.Landed k) (hmarked : e.Marked) (hs : e.simulation = some s)
    (henough : args + extra ≤ s.depth) :
    ∃ found d, Route.lookBack s.statementStart e.current.offset e.instructionBound
          (fun origins => ((origins.drop extra).take args).reverse) e
        = .ok ((found.drop extra).take args).reverse d
      ∧ (∃ d', Move.argumentsFrom? s.statementStart e.current.offset e.instructionBound args extra e
        = .ok (some ((found.drop extra).take args).reverse) d')
      ∧ r.Found s.statementStart k found ∧ e.Agrees d := by
  obtain ⟨t, ht, hstart⟩ := id h
  obtain rfl : s = t := Option.some.inj (hs.symm.trans ht.carries.simulation)
  obtain ⟨j, hjk, hre⟩ := exists_reentry hk.started
  rw [← hstart] at hre
  have hbound : r.place k - r.place j < e.instructionBound := by
    have hin := place_lt_length hk
    rw [Cursor.instructionBound, ht.carries.code]
    omega
  have hself : e.Retraces e := ⟨rfl, hmarked, s, s, hs, hs, rfl⟩
  -- There.
  obtain ⟨a, ha, hta⟩ := h.rewind hre hjk hstart.symm
  obtain ⟨u, hu, -⟩ := id hta
  have hsources : Move.sources u = Move.sources (r.sim j) :=
    congrArg (List.map Slot.source) hu.matched.slots
  obtain ⟨found, hto, hto?, htb, hfound⟩ := hta.originsTo hk e.instructionBound hre.landed hjk
    hbound (Nat.le_of_eq hre.place.symm) hre.found
  have hrb : e.Retraces (a.advance (k - j)) :=
    retraces_advance h hk (k - j) hta hre.landed (by omega) (hself.rewind ha)
  -- And back.
  obtain ⟨b, hb, htb'⟩ := htb.rewind hre hjk hstart.symm
  obtain ⟨hforward, htd⟩ := htb'.forwardTo hre.landed hk hjk hbound
  have hrd : e.Retraces (b.advance (k - j)) :=
    retraces_advance h hk (k - j) htb' hre.landed (by omega) (hrb.rewind hb)
  have hback : Move.restore ⟨e.current.offset, e.started, e.simulation.map (·.statementStart)⟩
      (a.advance (k - j)) = .ok () (b.advance (k - j)) := by
    obtain ⟨v, hv, -⟩ := htb
    have hleft : (a.advance (k - j)).instructionBound = e.instructionBound := by
      rw [Cursor.instructionBound, Cursor.instructionBound, hv.carries.code, ht.carries.code]
    rw [ht.same.started, hk.started, hs, Option.map_some, restore_eq hv.carries.simulation,
      EStateM.bind_apply, hb]
    dsimp only
    rw [h.offset, hleft]
    exact hforward
  refine ⟨found, b.advance (k - j), ?_, ⟨a.advance (k - j), ?_⟩, hfound,
    agrees_of_retraces h hk hmarked htd hrd⟩
  · rw [Route.lookBack, EStateM.bind_apply, mark_eq]
    dsimp only
    rw [EStateM.bind_apply, ha]
    dsimp only
    rw [EStateM.bind_apply, requireSimulation_eq hu.carries.simulation]
    dsimp only
    rw [EStateM.bind_apply, hsources, h.offset, hto]
    dsimp only
    rw [← h.offset, EStateM.bind_apply, hback]
    rfl
  · have hlength : found.length = s.depth := by
      rw [hfound.begins.length_eq, ← ht.matched.slots]
      rfl
    rw [Move.argumentsFrom?, EStateM.bind_apply, ha]
    dsimp only
    rw [EStateM.bind_apply, requireSimulation_eq hu.carries.simulation]
    dsimp only
    rw [EStateM.bind_apply, hsources, h.offset, hto?]
    dsimp only
    rw [Option.bind_some, if_neg (by omega)]
    rfl

end Route

/-! ## What is found -/

theorem callArguments_eq {e : Cursor} {s : Simulation} {sig : MethodSig} {args extra : Nat}
    (hs : e.simulation = some s) (hcall : e.current.op.isCall = true)
    (hsig : Simulate.callee e.image e.current = .ok sig)
    (hpops : Simulate.callPops e.current.op sig = (args, extra)) (henough : args + extra ≤ s.depth) :
    Move.callArguments e = Route.lookBack s.statementStart e.current.offset e.instructionBound
      (fun origins => ((origins.drop extra).take args).reverse) e := by
  have hnot : ¬ s.depth < args + extra := by omega
  rw [Move.callArguments, EStateM.bind_apply, Route.requireSimulation_eq hs]
  dsimp only
  rw [EStateM.bind_apply, EStateM.get_apply]
  dsimp only
  rw [hcall, if_neg (by decide), hsig, EStateM.bind_apply]
  show (if s.depth < (Simulate.callPops e.current.op sig).1
    + (Simulate.callPops e.current.op sig).2 then _ else _ : Move (List Nat)) e = _
  rw [hpops]
  dsimp only
  rw [if_neg hnot]
  rfl

/-- The slots of the arguments of a call, with `extra` values above them. -/
def Cursor.argumentSlots (c : Cursor) (args extra : Nat) : List Slot :=
  (c.stack.drop (c.stack.length - extra - args)).take args

theorem Cursor.argumentSlots_eq {c : Cursor} {s : Simulation} (hs : c.simulation = some s)
    {args extra : Nat} (henough : args + extra ≤ s.depth) :
    c.argumentSlots args extra = ((s.slots.drop extra).take args).reverse := by
  have hlength : args + extra ≤ s.slots.length := henough
  rw [argumentSlots, stack, hs]
  dsimp only
  have htake : s.slots.length - (s.slots.length - extra - args) = extra + args := by omega
  have hdrop : (s.slots.take (extra + args)).length - args = extra := by
    rw [List.length_take]
    omega
  rw [List.length_reverse, List.drop_reverse, List.take_reverse, htake, hdrop, List.take_drop]

section Begins

variable {origins : List Nat} {slots : List Slot} {args extra : Nat}

theorem Begins.arguments (h : Begins origins slots) (henough : args + extra ≤ slots.length) :
    ((origins.drop extra).take args).reverse.length = args
      ∧ ((origins.drop extra).take args).reverse.Pairwise (· ≤ ·)
      ∧ List.Forall₂ (fun place v => place ≤ v.source) ((origins.drop extra).take args).reverse
          ((slots.drop extra).take args).reverse := by
  have hlength := h.length_eq
  refine ⟨?_, ?_, ?_⟩
  · rw [List.length_reverse, List.length_take, List.length_drop]
    omega
  · rw [List.pairwise_reverse]
    exact h.falling.drop.take
  · exact List.rel_reverse (List.forall₂_take args (List.forall₂_drop extra h.early))

end Begins

/-- The argument in a slot begins at the last instruction before which the stack did not reach above
that slot. -/
theorem Route.Exact.argument {r : Route} {start k args extra : Nat} {origins : List Nat}
    (h : r.Exact start k origins) (henough : args + extra ≤ origins.length) {a : Nat}
    (ha : a < args) :
    ∃ m, ((origins.drop extra).take args).reverse[a]? = some (r.place m)
      ∧ r.LastShallow start k (origins.length - extra - args + a) m := by
  obtain ⟨m, hm, hat⟩ := h (origins.length - extra - args + a) (by omega)
  refine ⟨m, ?_, hm⟩
  have htaken : ((origins.drop extra).take args).length = args := by
    rw [List.length_take, List.length_drop]
    omega
  rw [← hat, List.getElem?_reverse (by omega), List.getElem?_reverse (by omega), htaken,
    List.getElem?_take_of_lt (by omega), List.getElem?_drop]
  congr 1
  omega

/-- **The arguments of a call are found.** Start a simulation on any cursor, make any moves, and stand
on a call whose signature is known and whose arguments are on the stack. Then looking for them
succeeds and asks for no beginning that is not there. One place is found for each argument, the
places do not fall, and none is behind the place that the value in the slot comes from. The cursor
shows what it showed before, and all later calls answer as they would have.

If from the start of the statement to the call no value is doubled, no handler starts and control
goes on from each instruction to the next, the place of an argument is the last one from the start
of the statement on where the stack did not reach above its slot. -/
theorem callArguments_exact {c start e : Cursor} {args locals : List TypeSig} {maxStack : Int}
    {moves : List CursorMove} {s : Simulation} {sig : MethodSig} {n extra : Nat}
    (htrack : Move.trackStack args locals maxStack c = .ok () start)
    (hmoves : CursorMove.performAll moves start = e) (hon : e.OnInstruction)
    (hs : e.simulation = some s) (hcall : e.current.op.isCall = true)
    (hsig : Simulate.callee e.image e.current = .ok sig)
    (hpops : Simulate.callPops e.current.op sig = (n, extra)) (henough : n + extra ≤ s.depth) :
    ∃ (places : List Nat) (d : Cursor), Move.callArguments e = .ok places d
      ∧ (∃ d', Move.argumentsFrom? s.statementStart e.current.offset e.instructionBound n extra e
          = .ok (some places) d')
      ∧ places.length = n ∧ places.Pairwise (· ≤ ·)
      ∧ List.Forall₂ (fun place v => place ≤ v.source) places (e.argumentSlots n extra)
      ∧ d.view = e.view ∧ (∀ calls, d.transcript calls = e.transcript calls)
      ∧ ∀ k, (Route.ofCursor c args locals).FirstAt e.current.offset k →
          (Route.ofCursor c args locals).Straight s.statementStart k →
          ∀ a, a < n → ∃ m, places[a]? = some ((Route.ofCursor c args locals).place m)
            ∧ (Route.ofCursor c args locals).LastShallow s.statementStart k
              (s.depth - extra - n + a) m := by
  obtain ⟨k, -, hk⟩ := Route.tracked_performAll moves
    ⟨0, Nat.le_refl 0, Route.tracks_trackStack htrack⟩
  have hmarked := Cursor.marked_performAll htrack moves
  rw [hmoves] at hk hmarked
  have hl := hk.onInstruction.mp hon
  obtain ⟨found, d, hback, hsliced, hfound, hagrees⟩ := hk.lookBack hl hmarked hs henough
  have hslots : ((Route.ofCursor c args locals).sim k).slots = s.slots := by
    obtain ⟨t, ht, -⟩ := hk
    obtain rfl : s = t := Option.some.inj (hs.symm.trans ht.carries.simulation)
    exact ht.matched.slots.symm
  have hbegins := hfound.begins
  rw [hslots] at hbegins
  obtain ⟨hlength, hrising, hearly⟩ := hbegins.arguments henough
  refine ⟨_, d, (callArguments_eq hs hcall hsig hpops henough).trans hback, hsliced, hlength,
    hrising, ?_, hagrees.view, fun calls => hagrees.transcript calls, ?_⟩
  · rw [Cursor.argumentSlots_eq hs henough]
    exact hearly
  · intro i hi hstraight a ha
    -- The walk is at the call only once.
    obtain rfl : i = k := Route.place_injective hi.landed hl (hi.place_eq.trans hk.offset)
    have hdepth : found.length = s.depth := hbegins.length_eq
    rw [← hdepth]
    exact (hfound.exact i (Nat.le_refl i) hstraight).argument (by omega) ha

open Assemble in
/-- An image with one signature: two numbers are taken and one is left. -/
@[irreducible]
def calliImage : Option Image :=
  (build [.standAloneSig [0x00, 0x02, 0x08, 0x08, 0x08]]).toOption.bind fun r =>
    (Image.parse r.2.bytes).toOption

open Assemble in
theorem calliImage_eq : ∃ (img : Image) (sig : MethodSig), calliImage = some img
    ∧ img.standAloneSig (Token.make .standAloneSig 1) = .ok sig ∧ sig.argCount = 2 := by
  have hproper : ∀ s ∈ [Step.standAloneSig [0x00, 0x02, 0x08, 0x08, 0x08]], s.Proper := by
    simp [Step.Proper]
  obtain ⟨results, b, img, hbuild, hparse, hrow, hread, hheaps⟩ := reproduces_of_build hproper
    (p := fun b => (b.rows.get .standAloneSig).explicit[0]? = some [1]) (by decide +kernel)
  have hblob := Image.signatureBlob_of_row (hread.row .standAloneSig 0 _ hrow) (by decide) 0 rfl
    (hheaps.blob [0x00, 0x02, 0x08, 0x08, 0x08] 1 (by decide +kernel))
  obtain ⟨sig, hsig, hargs⟩ : ∃ sig,
      MethodSig.decode .standAlone [0x00, 0x02, 0x08, 0x08, 0x08] = .ok sig ∧ sig.argCount = 2 :=
    ⟨_, rfl, rfl⟩
  refine ⟨img, sig, ?_, ?_, hargs⟩
  · unfold calliImage
    rw [hbuild, Except.toOption, Option.bind_some, hparse, Except.toOption]
  · rw [Image.standAloneSig, hblob]
    exact hsig

/-- A call through a pointer whose first argument is a sum: `ldc.i4.1; ldc.i4.2; add; ldc.i4.3;
ldc.i4.0; calli` and `ret`. -/
def sumCall : List UInt8 := [0x17, 0x18, 0x58, 0x19, 0x16, 0x29, 0x01, 0x00, 0x00, 0x11, 0x2A]

/-- The sum begins at its first term. -/
theorem callArguments_exact_sumCall :
    ∃ start e d : Cursor, Move.trackStack [] [] 8 (Cursor.start calliImage sumCall) = .ok () start
      ∧ CursorMove.performAll (List.replicate 6 .next) start = e
      ∧ Move.callArguments e = .ok [0, 3] d ∧ d.view = e.view := by
  let r := Route.ofCursor (Cursor.start calliImage sumCall) [] []
  have htrack : Move.trackStack [] [] 8 (Cursor.start calliImage sumCall) = .ok () r.start := rfl
  obtain ⟨img, sig, himage, hsig, hargs⟩ := calliImage_eq
  let e := CursorMove.performAll (List.replicate 6 .next) r.start
  have hon : e.OnInstruction := by
    refine ⟨?_, ?_, ?_⟩
    all_goals decide +kernel
  have hmoves : CursorMove.performAll (List.replicate 6 .next) r.start = e := rfl
  have hk := Route.tracks_nexts (Route.tracks_trackStack htrack) 6
  rw [hmoves] at hk
  have hl := hk.onInstruction.mp hon
  obtain ⟨s, hs, -⟩ := id hk
  have hcurrent : e.current.op = .calli ∧ e.current.operand.toToken = Token.make .standAloneSig 1 := by
    decide +kernel
  have hsimulation : e.simulation.map (fun s => (s.depth, s.statementStart)) = some (3, 0) := by
    decide +kernel
  clear_value e
  rw [hs.carries.simulation, Option.map_some, Option.some.injEq, Prod.mk.injEq] at hsimulation
  obtain ⟨hdepth, hstart⟩ := hsimulation
  have hcallee : Simulate.callee e.image e.current = .ok sig := by
    rw [show e.image = some img from hs.carries.image.trans himage, Simulate.callee,
      if_pos hcurrent.1, hcurrent.2, hsig]
  have hpops : Simulate.callPops e.current.op sig = (2, 1) := by
    rw [hcurrent.1, ← hargs]
    rfl
  obtain ⟨places, d, hplaces, -, hlength, -, -, hview, -, hexact⟩ :=
    callArguments_exact htrack hmoves hon hs.carries.simulation (by rw [hcurrent.1]; rfl) hcallee hpops
      (by omega)
  have hstraight : r.Straight s.statementStart 6 := by
    have hops : ∀ m, m < 6 → (r.cursor m).current.op ≠ .dup
        ∧ Simulate.endsFlow (r.cursor m).current.op = false := by
      decide +kernel
    exact ⟨fun _ _ _ _ => rfl, fun m _ _ hm => (hops m hm).1, fun m _ _ hm => (hops m hm).2⟩
  -- The stack is empty before the first constant, and holds the sum before the third.
  have hshallow : r.LastShallow s.statementStart 6 0 1 ∧ r.LastShallow s.statementStart 6 1 4 := by
    have hdepths : (r.sim 1).depth ≤ 0 ∧ (r.sim 4).depth ≤ 1
        ∧ ∀ i, i < 7 → (1 < i → 0 < (r.sim i).depth) ∧ (4 < i → 1 < (r.sim i).depth) := by
      decide +kernel
    obtain ⟨hone, hfour, hdeeper⟩ := hdepths
    rw [hstart]
    exact ⟨⟨hl.of_le (by decide) (by decide), Nat.zero_le _, by decide, hone,
        fun i hi hle => (hdeeper i (by omega)).1 hi⟩,
      ⟨hl.of_le (by decide) (by decide), Nat.zero_le _, by decide, hfour,
        fun i hi hle => (hdeeper i (by omega)).2 hi⟩⟩
  have hat : r.place 1 = 0 ∧ r.place 4 = 3 := by decide +kernel
  have hfirst : r.FirstAt e.current.offset 6 := by
    rw [hk.offset]
    exact hl.firstAt
  obtain ⟨m, hm, hlast⟩ := hexact 6 hfirst hstraight 0 (by decide)
  obtain ⟨m', hm', hlast'⟩ := hexact 6 hfirst hstraight 1 (by decide)
  rw [hdepth] at hlast hlast'
  obtain rfl : m = 1 := hlast.unique hshallow.1
  obtain rfl : m' = 4 := hlast'.unique hshallow.2
  have heq : places = [0, 3] := by
    obtain ⟨x, y, rfl⟩ := List.length_eq_two.mp hlength
    have hx : x = r.place 1 := Option.some.inj hm
    have hy : y = r.place 4 := Option.some.inj hm'
    rw [hx, hy, hat.1, hat.2]
  rw [heq] at hplaces
  exact ⟨r.start, e, d, htrack, hmoves, hplaces, hview⟩

end ManagedImage
