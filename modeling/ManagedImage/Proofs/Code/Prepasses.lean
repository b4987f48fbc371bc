/-
What is worked out before a walk agrees with the walk.

The scopes of local variables come from a sweep over the normal forms of the instructions.
`Names` says which variable an instruction names in the form it is written in, and the two
agree on decoded instructions (`localOf?_eq_some_iff`). After some instructions each entry is
the span of the places that have named its variable so far (`Spans`). Places grow along the
sweep, so one more instruction makes its place the last one.

A cursor keeps the scopes it has worked out last. They are right for as many variables as
there are of them (`ScopedCursor.Kept`), and no call spoils them, so what was asked for earlier
makes no difference.
-/
import ManagedImage.Proofs.Code.Targets

set_option autoImplicit false

namespace ManagedImage

/-! ## Naming a local variable -/

namespace Opcode

/-- The local variable that an operation names without an operand. -/
def localIndex? : Opcode → Option Nat
  | .ldloc0 | .stloc0 => some 0
  | .ldloc1 | .stloc1 => some 1
  | .ldloc2 | .stloc2 => some 2
  | .ldloc3 | .stloc3 => some 3
  | _ => none

/-- Whether an operation names the local variable that is its operand. -/
def takesLocal : Opcode → Bool
  | .ldloc | .ldlocS | .stloc | .stlocS | .ldloca | .ldlocaS => true
  | _ => false

/-- Whether an operation without abbreviation names a local variable. -/
def isLocal : Opcode → Bool
  | .ldloc | .stloc | .ldloca => true
  | _ => false

/-- What abbreviates an operation on a local variable names that variable itself. -/
theorem localIndex?_of_implied? {op long : Opcode} {v : Int} (h : op.implied? = some (long, v)) :
    op.takesLocal = false
      ∧ op.localIndex? = if long.isLocal = true then some v.toNat else none := by
  have hall : ∀ op ∈ all, ∀ x ∈ op.implied?, op.takesLocal = false
      ∧ op.localIndex? = if x.1.isLocal = true then some x.2.toNat else none := by
    decide +kernel
  exact hall op (List.mem_of_getElem? op.getElem?_all) (long, v) h

theorem takesLocal_of_implied?_none {op : Opcode} (h : op.implied? = none) :
    op.localIndex? = none ∧ op.takesLocal = (op.longForm?.getD op).isLocal
      ∧ (op.takesLocal = true → op.operand = .shortVar ∨ op.operand = .var) := by
  have hall : ∀ op ∈ all, op.implied? = none →
      op.localIndex? = none ∧ op.takesLocal = (op.longForm?.getD op).isLocal
        ∧ (op.takesLocal = true → op.operand = .shortVar ∨ op.operand = .var) := by
    decide +kernel
  exact hall op (List.mem_of_getElem? op.getElem?_all) h

end Opcode

/-- The instruction loads or stores a local variable or takes its address, in a form without an
operand or in one with the variable as its operand. -/
def Instruction.Names (i : Instruction) (k : Nat) : Prop :=
  i.op.localIndex? = some k ∨ (i.op.takesLocal = true ∧ i.operand = .int k)

/-- Some instruction at a place names the variable. -/
def Instruction.NamedAt (is : List Instruction) (k place : Nat) : Prop :=
  ∃ i ∈ is, i.Names k ∧ i.offset = place

namespace Instruction

theorem normalize_of_implied?_none {i : Instruction} (h : i.op.implied? = none) :
    i.normalize = { i with op := i.op.longForm?.getD i.op } := by
  rw [normalize, h]
  cases i.op.longForm? with
  | some op => rfl
  | none => rfl

/-- The operand that is the number of a variable is not negative. -/
theorem operand_of_decode_var {code : List UInt8} {offset : Nat} {i : Instruction}
    (h : decode code offset = .ok i) (hkind : i.op.operand = .shortVar ∨ i.op.operand = .var) :
    ∃ k : Nat, i.operand = .int k := by
  obtain ⟨w, -, -, hfits, rfl, -⟩ := encode_of_decode h
  have hkind : w.op.operand = .shortVar ∨ w.op.operand = .var := hkind
  have hshown : w.shown.operand = w.operand := by
    apply Operand.shown_of_ne
    rcases hkind with hkind | hkind <;> simp [hkind]
  rw [hshown]
  rw [fits] at hfits
  cases hx : w.operand with
  | int v =>
    have hpos : 0 ≤ v := by
      rcases hkind with hkind | hkind <;> simp [hkind, hx, Operand.fits] at hfits <;> omega
    exact ⟨v.toNat, by rw [Int.toNat_of_nonneg hpos]⟩
  | _ =>
    rcases hkind with hkind | hkind <;>
      simp [hkind, hx, Operand.fits, OperandKind.isToken] at hfits

end Instruction

namespace LocalScope

theorem localOf?_eq (i : Instruction) : localOf? i
    = if i.normalize.op.isLocal = true then some i.normalize.operand.toInt.toNat else none := by
  rw [localOf?]
  unfold Opcode.isLocal
  split <;> simp_all

/-- **Normal forms name the same variables.** The scopes look at the normal form of an instruction
and find the variable that the instruction names in its own form. -/
theorem localOf?_eq_some_iff {code : List UInt8} {offset k : Nat} {i : Instruction}
    (h : Instruction.decode code offset = .ok i) : localOf? i = some k ↔ i.Names k := by
  rw [localOf?_eq]
  cases himplied : i.op.implied? with
  | some x =>
    obtain ⟨long, v⟩ := x
    obtain ⟨htakes, hindex⟩ := Opcode.localIndex?_of_implied? himplied
    have hnormal : i.normalize = { i with op := long, operand := .int v } := by
      rw [Instruction.normalize, himplied]
    rw [hnormal]
    show (if long.isLocal = true then some v.toNat else none) = some k ↔ _
    rw [← hindex, Instruction.Names, htakes]
    simp
  | none =>
    obtain ⟨hindex, htakes, hvar⟩ := Opcode.takesLocal_of_implied?_none himplied
    rw [Instruction.normalize_of_implied?_none himplied]
    show (if (i.op.longForm?.getD i.op).isLocal = true then some i.operand.toInt.toNat else none)
      = some k ↔ _
    rw [← htakes, Instruction.Names, hindex]
    by_cases hlocal : i.op.takesLocal = true
    · obtain ⟨n, hn⟩ := Instruction.operand_of_decode_var h (hvar hlocal)
      rw [if_pos hlocal, hn]
      simp only [Operand.toInt, Int.toNat_natCast, Option.some.injEq, hlocal, Operand.int.injEq,
        reduceCtorEq, true_and, false_or]
      omega
    · rw [if_neg hlocal]
      simp [hlocal]

/-! ## The scopes after some instructions -/

/-- First and last place. -/
def ends (s : LocalScope) : Nat × Nat := (s.first, s.last)

/-- Each entry spans the places at which the instructions name its variable. -/
def Spans (is : List Instruction) (scopes : List (Option LocalScope)) : Prop :=
  ∀ (k : Nat) (hk : k < scopes.length), IsSpan (Instruction.NamedAt is k) (scopes[k].map ends)

section Spans

variable {seen is : List Instruction} {i : Instruction} {k n place : Nat}
  {scopes : List (Option LocalScope)}

theorem spans_replicate (n : Nat) : Spans [] (List.replicate n none) := by
  intro k hk
  rw [List.getElem_replicate]
  rintro place ⟨i, hi, -⟩
  cases hi

theorem namedAt_concat : Instruction.NamedAt (seen ++ [i]) k place
    ↔ Instruction.NamedAt seen k place ∨ (i.Names k ∧ place = i.offset) := by
  simp [Instruction.NamedAt, or_and_right, exists_or, eq_comm (a := i.offset)]

theorem Spans.keep (h : Spans seen scopes) (hnot : ∀ k, ¬ i.Names k) :
    Spans (seen ++ [i]) scopes := by
  intro k hk
  apply (h k hk).congr
  intro place
  simp [namedAt_concat, hnot k]

/-- An instruction behind all others makes its place the last one of the variable it names. -/
theorem Spans.extend (h : Spans seen scopes) (hnames : ∀ k, i.Names k ↔ n = k)
    (hlast : ∀ j ∈ seen, j.offset ≤ i.offset) :
    Spans (seen ++ [i]) (scopes.modify n fun s => some (LocalScope.extend i.offset s)) := by
  intro k hk
  rw [List.length_modify] at hk
  rw [List.getElem_modify]
  by_cases hkn : n = k
  · rw [if_pos hkn]
    have hbefore : ∀ place, Instruction.NamedAt seen k place → place ≤ i.offset := by
      rintro _ ⟨j, hj, -, rfl⟩
      exact hlast j hj
    have hends : (LocalScope.extend i.offset scopes[k]).ends
        = (((scopes[k].map ends).map (·.1)).getD i.offset, i.offset) := by
      cases scopes[k] with
      | none => rfl
      | some s => rfl
    rw [Option.map_some, hends]
    apply ((h k hk).snoc hbefore).congr
    intro place
    rw [namedAt_concat, hnames k]
    simp [hkn]
  · rw [if_neg hkn]
    apply (h k hk).congr
    intro place
    rw [namedAt_concat, hnames k]
    simp [hkn]

/-- Collecting fails at an instruction that names a variable there is no entry for. -/
theorem collect_fails_iff : (∃ f, collect scopes is = .error f)
    ↔ ∃ i ∈ is, ∃ k, localOf? i = some k ∧ scopes.length ≤ k := by
  fun_induction collect scopes is with
  | case1 scopes => simp
  | case2 scopes i rest hnone ih => simp [ih, hnone]
  | case3 scopes i rest n hn hle => simp [hn, hle]
  | case4 scopes i rest n hn hlt ih =>
    rw [List.length_modify] at ih
    simp [ih, hn, hlt]

/-- Collecting goes on with the spans of the instructions before. -/
theorem spans_collect {code : List UInt8} (is : List Instruction) :
    ∀ {seen : List Instruction} {offset : Nat} {scopes result : List (Option LocalScope)},
      Instruction.Swept code offset is → (∀ j ∈ seen, j.offset < offset) → Spans seen scopes →
        collect scopes is = .ok result →
          result.length = scopes.length ∧ Spans (seen ++ is) result := by
  induction is with
  | nil =>
    intro seen offset scopes result _ _ hspans hresult
    obtain rfl : scopes = result := Except.ok.inj hresult
    rw [List.append_nil]
    exact ⟨rfl, hspans⟩
  | cons i rest ih =>
    rintro seen offset scopes result ⟨hdecode, hrest⟩ hseen hspans hresult
    obtain ⟨hoffset, hnext, -⟩ := Instruction.decode_ok hdecode
    have hnames := fun k => localOf?_eq_some_iff (k := k) hdecode
    -- The instruction goes from those ahead to those seen, which stay in front of what is ahead.
    have hseen' : ∀ j ∈ seen ++ [i], j.offset < i.next := by
      intro j hj
      rcases List.mem_append.mp hj with hj | hj
      · exact (hseen j hj).trans hnext
      · rw [List.mem_singleton.mp hj]
        omega
    rw [List.append_cons]
    rw [collect] at hresult
    cases hlocal : localOf? i with
    | none =>
      rw [hlocal] at hresult
      apply ih hrest hseen' (hspans.keep _) hresult
      intro k hk
      rw [(hnames k).mpr hk] at hlocal
      cases hlocal
    | some n =>
      rw [hlocal] at hresult
      dsimp only at hresult
      by_cases hle : scopes.length ≤ n
      · rw [if_pos hle] at hresult
        cases hresult
      · rw [if_neg hle] at hresult
        -- It names one variable, whose scope is extended; all others are kept.
        have honly : ∀ k, i.Names k ↔ n = k := by
          intro k
          rw [← hnames k, hlocal, Option.some.injEq]
        have hlast : ∀ j ∈ seen, j.offset ≤ i.offset := by
          intro j hj
          rw [hoffset]
          exact le_of_lt (hseen j hj)
        obtain ⟨hlength, hall⟩ := ih hrest hseen' (hspans.extend honly hlast) hresult
        rw [List.length_modify] at hlength
        exact ⟨hlength, hall⟩

end Spans

section OfCode

variable {code : List UInt8} {n : Nat}

theorem decode_of_mem_sweep {offset : Nat} {i : Instruction} :
    i ∈ (Instruction.sweep code offset).1 → Instruction.decode code i.offset = .ok i := by
  fun_induction Instruction.sweep code offset with
  | case1 offset hin f hdecode => simp
  | case2 offset hin j hdecode hlt rest fault hrest ih =>
    intro hi
    rcases List.mem_cons.mp hi with rfl | hi
    · rwa [(Instruction.decode_ok hdecode).1]
    · rw [hrest] at ih
      exact ih hi
  | case3 offset hin j hdecode hlt => exact absurd (Instruction.decode_ok hdecode).2.1 hlt
  | case4 offset hout => simp

/-- The scopes cannot be had if the sweep is stopped, or if an instruction names a variable that is
not there. -/
theorem ofCode_fails_iff : (∃ f, ofCode code n = .error f) ↔ (Instruction.sweep code 0).2 ≠ none
    ∨ ∃ i ∈ (Instruction.sweep code 0).1, ∃ k, i.Names k ∧ n ≤ k := by
  have hnames : (∃ i ∈ (Instruction.sweep code 0).1, ∃ k, i.Names k ∧ n ≤ k)
      ↔ ∃ f, collect (List.replicate n none) (Instruction.sweep code 0).1 = .error f := by
    rw [collect_fails_iff, List.length_replicate]
    refine exists_congr fun i => and_congr_right fun hi => exists_congr fun k => ?_
    rw [localOf?_eq_some_iff (decode_of_mem_sweep hi)]
  rw [hnames, ofCode]
  rcases Instruction.sweep code 0 with ⟨is, fault⟩
  dsimp only
  cases collect (List.replicate n none) is with
  | error f => simp [bind, Except.bind]
  | ok scopes =>
    cases fault with
    | none => simp [bind, Except.bind, pure, Except.pure]
    | some f => simp [bind, Except.bind, throw, throwThe, MonadExceptOf.throw]

/-- The scopes span the places that name their variables. -/
theorem spans_ofCode {scopes : List (Option LocalScope)} (h : ofCode code n = .ok scopes) :
    scopes.length = n ∧ Spans (Instruction.sweep code 0).1 scopes := by
  have hswept := Instruction.swept_sweep code 0
  rw [ofCode] at h
  generalize Instruction.sweep code 0 = swept at h hswept ⊢
  obtain ⟨is, fault⟩ := swept
  obtain ⟨collected, hcollect, h⟩ := Except.bind_ok h
  cases fault with
  | some f => cases h
  | none =>
    obtain rfl : collected = scopes := Except.ok.inj h
    have hfirst : ∀ j ∈ ([] : List Instruction), j.offset < 0 := by
      intro j hj
      cases hj
    have hspans := spans_collect is (hswept rfl) hfirst (spans_replicate n) hcollect
    rwa [List.length_replicate, List.nil_append] at hspans

end OfCode

end LocalScope

/-! ## Scopes that are kept -/

namespace ScopedCursor

/-- The cursor after a call, whether it failed or not. -/
def after {α : Type} (x : EStateM Fault ScopedCursor α) (c : ScopedCursor) : ScopedCursor :=
  match x c with
  | .ok _ d => d
  | .error _ d => d

/-- The scopes that are kept are those of as many variables. -/
def Kept (c : ScopedCursor) : Prop :=
  ∀ scopes, c.scopes = some scopes → LocalScope.ofCode c.cursor.code scopes.length = .ok scopes

theorem after_move {α : Type} (m : Move α) (c : ScopedCursor) :
    after (move m) c = { c with cursor := m.after c.cursor } := by
  rw [after, move, Move.after]
  cases m c.cursor with
  | ok a d => rfl
  | error f d => rfl

/-- **What was asked for earlier makes no difference**: the scopes are those of the code, and where
there are some they are kept. -/
theorem Kept.localScopes_apply {c : ScopedCursor} (h : c.Kept) (n : Nat) :
    localScopes n c = match LocalScope.ofCode c.cursor.code n with
      | .ok scopes => .ok scopes { c with scopes := some scopes }
      | .error f => .error f c := by
  rw [localScopes, EStateM.bind_apply, EStateM.get_apply]
  dsimp only
  cases hfilter : c.scopes.filter fun scopes => scopes.length = n with
  | some scopes =>
    obtain ⟨hscopes, hlength⟩ := Option.filter_eq_some_iff.mp hfilter
    have hkept := h scopes hscopes
    rw [of_decide_eq_true hlength] at hkept
    rw [hkept]
    dsimp only
    rw [← hscopes]
    rfl
  | none =>
    cases LocalScope.ofCode c.cursor.code n with
    | ok scopes => rfl
    | error f => rfl

/-- The scopes stay right on a cursor over the same code. -/
theorem Kept.withCursor {c : ScopedCursor} (h : c.Kept) {d : Cursor}
    (hcode : d.code = c.cursor.code) : Kept { c with cursor := d } := by
  intro scopes hscopes
  show LocalScope.ofCode d.code scopes.length = .ok scopes
  rw [hcode]
  exact h scopes hscopes

theorem Kept.localScopes {c : ScopedCursor} (h : c.Kept) (n : Nat) :
    (after (localScopes n) c).Kept := by
  rw [after, h.localScopes_apply]
  cases hscopes : LocalScope.ofCode c.cursor.code n with
  | error f => exact h
  | ok scopes =>
    rintro _ ⟨⟩
    show LocalScope.ofCode c.cursor.code scopes.length = .ok scopes
    rw [(LocalScope.spans_ofCode hscopes).1, hscopes]

/-- Asking for scopes does not move the cursor. -/
theorem cursor_localScopes (n : Nat) (c : ScopedCursor) :
    (after (localScopes n) c).cursor = c.cursor := by
  rw [after, ScopedCursor.localScopes, EStateM.bind_apply, EStateM.get_apply]
  dsimp only
  cases c.scopes.filter fun scopes => scopes.length = n with
  | some scopes => rfl
  | none => cases LocalScope.ofCode c.cursor.code n <;> rfl

end ScopedCursor

/-- A call on a cursor and the scopes it keeps. -/
inductive ScopedCall where
  /-- A call that concerns the cursor only. -/
  | cursor (call : CursorCall)
  /-- Collecting the places that are jumped to. -/
  | trackTargets
  /-- Starting a simulation. -/
  | trackStack (args locals : List TypeSig) (maxStack : Int)
  /-- Asking for the scopes of so many variables. -/
  | localScopes (n : Nat)

namespace ScopedCall

open ScopedCursor (after move)

/-- The cursor after a call, whether it failed or not. -/
def perform : ScopedCall → ScopedCursor → ScopedCursor
  | .cursor call, c => after (move call.make) c
  | .trackTargets, c => after (move Move.trackTargets) c
  | .trackStack args locals maxStack, c => after (move (Move.trackStack args locals maxStack)) c
  | .localScopes n, c => after (ScopedCursor.localScopes n) c

/-- The cursor after some calls, each made whether or not those before it failed. -/
def performAll (calls : List ScopedCall) (c : ScopedCursor) : ScopedCursor :=
  calls.foldl (fun c call => call.perform c) c

/-- **What a call does.** It leaves the places alone, or it collects them, or it asks for scopes. -/
theorem perform_cases (call : ScopedCall) (c : ScopedCursor) :
    (∃ d, c.cursor.Keeps d ∧ call.perform c = { c with cursor := d })
      ∨ call.perform c = { c with cursor := Move.trackTargets.after c.cursor }
      ∨ ∃ n, call.perform c = after (ScopedCursor.localScopes n) c := by
  cases call with
  | cursor call =>
    exact .inl ⟨_, call.keepsTargets_make c.cursor, ScopedCursor.after_move call.make c⟩
  | trackTargets => exact .inr (.inl (ScopedCursor.after_move Move.trackTargets c))
  | trackStack args locals maxStack =>
    have hkeeps := Move.keepsTargets_trackStack args locals maxStack c.cursor
    exact .inl ⟨_, hkeeps, ScopedCursor.after_move _ c⟩
  | localScopes n => exact .inr (.inr ⟨n, rfl⟩)

section Runs

variable {c : ScopedCursor} {ts : List Int}

theorem kept_perform (h : c.Kept) (call : ScopedCall) :
    (call.perform c).Kept ∧ (call.perform c).cursor.code = c.cursor.code := by
  rcases perform_cases call c with ⟨d, hkeeps, hd⟩ | hd | ⟨n, hd⟩
  · rw [hd]
    exact ⟨h.withCursor hkeeps.code, hkeeps.code⟩
  · have hcode := Move.code_trackTargets c.cursor
    rw [hd]
    exact ⟨h.withCursor hcode, hcode⟩
  · rw [hd]
    exact ⟨h.localScopes n, congrArg Cursor.code (ScopedCursor.cursor_localScopes n c)⟩

theorem collected_perform (h : c.cursor.Collected) (call : ScopedCall) :
    (call.perform c).cursor.Collected := by
  rcases perform_cases call c with ⟨d, hkeeps, hd⟩ | hd | ⟨n, hd⟩
  · rw [hd]
    exact hkeeps.collected h
  · rw [hd]
    exact Move.collected_trackTargets h
  · rw [hd, ScopedCursor.cursor_localScopes]
    exact h

theorem keeps_perform (hts : c.cursor.targets = some ts) (call : ScopedCall) :
    c.cursor.Keeps (call.perform c).cursor := by
  rcases perform_cases call c with ⟨d, hkeeps, hd⟩ | hd | ⟨n, hd⟩
  · rw [hd]
    exact hkeeps
  · rw [hd, Move.after, Move.trackTargets_of_some hts]
    exact Cursor.Keeps.refl _
  · rw [hd, ScopedCursor.cursor_localScopes]
    exact Cursor.Keeps.refl _

/-- What every call keeps, all calls keep. -/
theorem performAll_induction {P : ScopedCursor → Prop}
    (hstep : ∀ c, P c → ∀ call : ScopedCall, P (call.perform c)) (calls : List ScopedCall) :
    ∀ {c : ScopedCursor}, P c → P (performAll calls c) := by
  induction calls with
  | nil => exact id
  | cons call calls ih =>
    intro c h
    exact ih (hstep c h call)

/-- **No calls spoil the scopes that are kept**, and the code stays the same. -/
theorem kept_performAll (calls : List ScopedCall) (h : c.Kept) :
    (performAll calls c).Kept ∧ (performAll calls c).cursor.code = c.cursor.code := by
  apply performAll_induction (P := fun d => d.Kept ∧ d.cursor.code = c.cursor.code) _ calls ⟨h, rfl⟩
  rintro d ⟨hd, hcode⟩ call
  obtain ⟨hkept, hcode'⟩ := kept_perform hd call
  exact ⟨hkept, hcode'.trans hcode⟩

/-- Whatever is called, the places are those of the code if they have been collected. -/
theorem collected_performAll (calls : List ScopedCall) (h : c.cursor.Collected) :
    (performAll calls c).cursor.Collected :=
  performAll_induction (P := fun d => d.cursor.Collected) (fun _ => collected_perform) calls h

/-- **Once the places have been collected, no calls change them**, and the mark stays right. -/
theorem keeps_performAll (calls : List ScopedCall) (hts : c.cursor.targets = some ts) :
    c.cursor.Keeps (performAll calls c).cursor := by
  apply performAll_induction (P := fun d => c.cursor.Keeps d.cursor) _ calls (Cursor.Keeps.refl _)
  intro d hd call
  exact hd.trans (keeps_perform (hd.targets.trans hts) call)

end Runs

end ScopedCall

/-! ## The walk says it all -/

/-- The cursor knows which places are jumped to, and says so of the current instruction. -/
structure Cursor.Labelled (ts : List Int) (c : Cursor) : Prop where
  targets : c.targets = some ts
  isTarget : ∀ place, c.isTarget place = true ↔ place ∈ ts
  onTarget : c.started = true → (c.onTarget = true ↔ (c.current.offset : Int) ∈ ts)

theorem Cursor.labelled_of_marked {c : Cursor} {ts : List Int} (hts : c.targets = some ts)
    (hgrow : ts.Pairwise (· < ·)) (hmarked : c.Marked) : c.Labelled ts := by
  refine ⟨hts, fun place => isTarget_iff hts hgrow, ?_⟩
  intro hstarted
  rw [hmarked hstarted, isTarget_iff hts hgrow]

section Prepasses

variable {c final : Cursor} {visited : List Instruction}

theorem sweep_of_walk (hwalk : (Cursor.start c.image c.code).walk (·.current) c.instructionBound
    = (visited, final)) : Instruction.sweep c.code 0 = (visited, final.fault)
      ∧ final.ended = final.fault.isNone := by
  have hplain : (Cursor.start c.image c.code).Plain := ⟨rfl, rfl, rfl⟩
  have hbound : c.code.length - 0 < c.instructionBound := Nat.lt_succ_of_le (Nat.sub_le _ _)
  obtain ⟨hvisited, hfault, hended⟩ := Cursor.walk_eq_sweep c.instructionBound hplain hbound
  rw [hwalk] at hvisited hfault hended
  have hfault : final.fault = (Instruction.sweep c.code 0).2 := hfault
  exact ⟨Prod.ext hvisited.symm hfault.symm, by rw [hfault]; exact hended⟩

/-- **What is worked out before a walk agrees with the walk**, whatever has been called before. The
places that are jumped to can be collected if and only if the plain walk over the code ends without
a fault. They grow, they are those the visited instructions lead to, and after any more calls a
cursor on an instruction says rightly whether it is one of them. The scopes of `n` variables cannot
be had if and only if the walk is stopped or visits an instruction that names a variable beyond
them. Otherwise each spans the places that name its variable. The cursor is not moved. -/
theorem prepasses_follow_walk (hnew : c.targets = none)
    (hwalk : (Cursor.start c.image c.code).walk (·.current) c.instructionBound = (visited, final)) :
    final.ended = final.fault.isNone
      ∧ ∀ calls e, ScopedCall.performAll calls ⟨c, none⟩ = e →
          ((∃ d, Move.trackTargets e.cursor = .ok () d) ↔ final.fault = none)
          ∧ (∀ d, Move.trackTargets e.cursor = .ok () d →
              ∃ ts : List Int, ts.Pairwise (· < ·)
                ∧ (∀ place, place ∈ ts ↔ ∃ i ∈ visited, i.JumpsTo place)
                ∧ ∀ more, (ScopedCall.performAll more { e with cursor := d }).cursor.Labelled ts)
          ∧ ∀ n, ((∃ f e', ScopedCursor.localScopes n e = .error f e')
                ↔ final.fault ≠ none ∨ ∃ i ∈ visited, ∃ k, i.Names k ∧ n ≤ k)
              ∧ (∀ scopes e', ScopedCursor.localScopes n e = .ok scopes e' →
                  scopes.length = n ∧ LocalScope.Spans visited scopes)
              ∧ (ScopedCursor.after (ScopedCursor.localScopes n) e).cursor = e.cursor := by
  obtain ⟨hsweep, hended⟩ := sweep_of_walk hwalk
  refine ⟨hended, ?_⟩
  rintro calls e he
  have hnone : ScopedCursor.Kept ⟨c, none⟩ := by
    intro scopes hscopes
    cases hscopes
  have hcollected := ScopedCall.collected_performAll calls (c := ⟨c, none⟩) (.inl hnew)
  obtain ⟨hkept, hcode⟩ := ScopedCall.kept_performAll calls hnone
  rw [he] at hcollected hkept hcode
  -- No call changes the code, so the walk of the first cursor is over the code of the last.
  have hcode : e.cursor.code = c.code := hcode
  rw [← hcode] at hsweep
  obtain ⟨htrack, htargets⟩ := Move.trackTargets_spec hcollected hsweep
  refine ⟨htrack, ?_, ?_⟩
  · intro d hd
    obtain ⟨hts, hmarked⟩ := htargets d hd
    refine ⟨Instruction.jumpTargets visited, pairwise_jumpTargets, fun _ => mem_jumpTargets, ?_⟩
    intro more
    have hkeeps := ScopedCall.keeps_performAll more (c := { e with cursor := d }) hts
    exact Cursor.labelled_of_marked (hkeeps.targets.trans hts) pairwise_jumpTargets
      (hkeeps.marked hmarked)
  · intro n
    have hfails := @LocalScope.ofCode_fails_iff e.cursor.code n
    have hspans := @LocalScope.spans_ofCode e.cursor.code n
    rw [hsweep] at hfails hspans
    rw [hkept.localScopes_apply]
    refine ⟨?_, ?_, ScopedCursor.cursor_localScopes n e⟩
    · rw [← hfails]
      cases LocalScope.ofCode e.cursor.code n with
      | ok scopes => simp
      | error f => simp
    · intro scopes e' he'
      cases hscopes : LocalScope.ofCode e.cursor.code n with
      | error f =>
        rw [hscopes] at he'
        cases he'
      | ok found =>
        rw [hscopes] at he'
        obtain rfl := (EStateM.Result.ok.inj he').1
        exact hspans hscopes

end Prepasses

/-- A loop over two variables: `ldloc.0; stloc.s 1` and a jump back to the start. -/
def loopCode : List UInt8 := [0x06, 0x13, 0x01, 0x2B, 0xFB]

theorem prepasses_follow_walk_loopCode :
    (∃ d ts, Move.trackTargets (Cursor.start none loopCode) = .ok () d ∧ (0 : Int) ∈ ts
        ∧ (ScopedCall.performAll [.localScopes 2, .cursor (.move .next)]
            ⟨d, none⟩).cursor.Labelled ts)
      ∧ ∃ f e', ScopedCursor.localScopes 1
          (ScopedCall.performAll [.localScopes 2] ⟨Cursor.start none loopCode, none⟩)
        = .error f e' := by
  have hvisited : ((Cursor.start none loopCode).walk (·.current) 6).1
      = [⟨0, .ldloc0, 1, .none⟩, ⟨1, .stlocS, 2, .int 1⟩, ⟨3, .brS, 2, .target 0⟩] := by
    decide +kernel
  have hfault : ((Cursor.start none loopCode).walk (·.current) 6).2.fault.isNone = true := by
    decide +kernel
  obtain ⟨-, hall⟩ := prepasses_follow_walk (c := .start none loopCode) rfl (Prod.ext hvisited rfl)
  obtain ⟨htrack, htargets, -⟩ := hall [] _ rfl
  obtain ⟨-, -, hscopes⟩ := hall [.localScopes 2] _ rfl
  obtain ⟨d, hd⟩ := htrack.mpr (Option.isNone_iff_eq_none.mp hfault)
  obtain ⟨ts, -, hmem, hlabelled⟩ := htargets d hd
  refine ⟨⟨d, ts, hd, (hmem 0).mpr ⟨⟨3, .brS, 2, .target 0⟩, ?_, .inl rfl⟩, hlabelled _⟩, ?_⟩
  · simp
  · -- The second instruction names the second variable.
    exact (hscopes 1).1.mpr (.inr ⟨⟨1, .stlocS, 2, .int 1⟩, by simp, 1, .inr ⟨rfl, rfl⟩, le_refl 1⟩)

end ManagedImage
