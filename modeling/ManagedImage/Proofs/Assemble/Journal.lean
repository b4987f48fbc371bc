/-
The journal of a builder.

Whatever the steps add to the heaps goes through five additions: a string, a blob, a
GUID, a literal, a body. `Step.stores` lists what a step asks to store, in order, and
the journal of some steps is what these requests were answered with. The rows and the
settings have no part in the answers: a builder reduced to its heaps
(`Builder.heapsOnly`) gives the same ones, so everything about indexes is a statement
about `Builder.storeAll` alone.

`Build.Emits` is the triple that carries this over the steps. It speaks only of
computations that end without a fault, so no step has to be proper.
-/
import ManagedImage.Proofs.Assemble.Rows
import ManagedImage.Proofs.Results

set_option autoImplicit false

namespace ManagedImage.Assemble

/-! ## Requests and answers -/

/-- A request to store something. -/
inductive Store where
  | string (s : Text)
  | blob (data : List UInt8)
  | guid (g : List UInt8)
  | literal (s : Text)
  | body (bytes : List UInt8)
deriving DecidableEq

namespace Builder

/-- Stores what is asked for and gives its index, or the address of a body. -/
def store (b : Builder) : Store → Nat × Builder
  | .string s => b.addString s
  | .blob data => b.addBlob data
  | .guid g => b.addGuid g
  | .literal s => b.addLiteral s
  | .body bytes => b.addBody bytes

/-- Stores one after the other; gives each request with its answer, and the builder. -/
def storeAll : Builder → List Store → List (Store × Nat) × Builder
  | b, [] => ([], b)
  | b, s :: rest =>
    let (entries, c) := storeAll (b.store s).2 rest
    ((s, (b.store s).1) :: entries, c)

theorem storeAll_append (b : Builder) (ss ts : List Store) :
    b.storeAll (ss ++ ts) = ((b.storeAll ss).1 ++ ((b.storeAll ss).2.storeAll ts).1,
      ((b.storeAll ss).2.storeAll ts).2) := by
  induction ss generalizing b with
  | nil => rfl
  | cons s ss ih =>
    rw [List.cons_append, storeAll, storeAll, ih]
    rfl

/-- The builder with its heaps and nothing else. -/
def heapsOnly (b : Builder) : Builder :=
  { empty with
    strings := b.strings
    stringIndex := b.stringIndex
    blobs := b.blobs
    blobIndex := b.blobIndex
    literals := b.literals
    guids := b.guids
    bodies := b.bodies }

/-- A store looks at the heaps alone, and changes them alone. -/
theorem store_heapsOnly (b : Builder) (s : Store) :
    (b.heapsOnly.store s).1 = (b.store s).1
      ∧ (b.heapsOnly.store s).2 = (b.store s).2.heapsOnly := by
  cases s with
  | string s =>
    simp only [store, addString, heapsOnly]
    split
    · exact ⟨rfl, rfl⟩
    · split <;> exact ⟨rfl, rfl⟩
  | blob data =>
    simp only [store, addBlob, heapsOnly]
    split <;> exact ⟨rfl, rfl⟩
  | guid g => exact ⟨rfl, rfl⟩
  | literal s => exact ⟨rfl, rfl⟩
  | body bytes => exact ⟨rfl, rfl⟩

theorem store_rows (b : Builder) (s : Store) : (b.store s).2.rows = b.rows := by
  cases s with
  | string s =>
    simp only [store, addString]
    split
    · rfl
    · split <;> rfl
  | blob data =>
    simp only [store, addBlob]
    split <;> rfl
  | guid g => rfl
  | literal s => rfl
  | body bytes => rfl

end Builder

/-! ## What a step asks for -/

/-- What a cell asks to store. -/
def Cell.stores : Cell → List Store
  | .number _ => []
  | .string s => [.string s]
  | .blob data => [.blob data]
  | .guid g => [.guid g]

/-- The body that parts make, if they can be written. -/
def bodyStores (parts : List BodyPart) : List Store :=
  match encodeBody parts with
  | .ok bytes => [.body bytes]
  | .error _ => []

/-- What a step asks to store, in order. -/
def Step.stores : Step → List Store
  | .string s => [.string s]
  | .blob data => [.blob data]
  | .literal s => [.literal s]
  | .guid g => [.guid g]
  | .body parts => bodyStores parts
  | .row _ cells => cells.flatMap Cell.stores
  | .module name => [.guid Build.moduleGuid, .string name]
  | .assembly name _ | .assemblyRef name _ | .param _ _ name => [.string name]
  | .typeRef _ space name | .typeDef _ space name _ => [.string name, .string space]
  | .field _ name sig | .memberRef _ name sig => [.string name, .blob sig]
  | .method _ name sig parts? => (parts?.elim [] bodyStores) ++ [.string name, .blob sig]
  | .standAloneSig sig | .typeSpec sig => [.blob sig]
  | .setWide _ | .setEntryPoint _ | .setVersion _ | .setWideHeaps _ _ _ | .pad _ _ | .setSorted _
  | .rowCount _ => []

/-- The one request whose answer is the number of the step. -/
def Step.request? : Step → Option Store
  | .string s => some (.string s)
  | .blob data => some (.blob data)
  | .literal s => some (.literal s)
  | .guid g => some (.guid g)
  | .body parts => (bodyStores parts).head?
  | _ => none

/-- Everything the steps ask to store, in order, with the answers. -/
def journal (steps : List Step) : List (Store × Nat) :=
  (Builder.empty.storeAll (steps.flatMap Step.stores)).1

/-! ## Computations -/

/-- Whenever the computation ends without a fault, it has done to the heaps what the stores do,
and the rows still fit their tables. -/
def Build.Emits {α : Type} (x : Build α) (ss : List Store) : Prop :=
  ∀ (b : Builder) (a : α) (c : Builder), x b = .ok (a, c) →
    c.heapsOnly = (b.heapsOnly.storeAll ss).2 ∧ (b.RowsFit → c.RowsFit)

namespace Build

variable {α β : Type}

theorem emits_pure (a : α) : Emits (pure a) [] := by
  intro b a' c h
  cases h
  exact ⟨rfl, id⟩

theorem Emits.bind {x : Build α} {f : α → Build β} {ss ts : List Store} (hx : Emits x ss)
    (hf : ∀ a, Emits (f a) ts) : Emits (x >>= f) (ss ++ ts) := by
  intro b r d h
  obtain ⟨a, c, hxb, hfc⟩ := StateT.bind_ok h
  obtain ⟨hheaps, hfit⟩ := hx b a c hxb
  obtain ⟨hheaps', hfit'⟩ := hf a c r d hfc
  refine ⟨?_, fun hb => hfit' (hfit hb)⟩
  rw [hheaps', hheaps, Builder.storeAll_append]

/-- A computation that stores nothing may stand in front. -/
theorem Emits.after {x : Build α} {f : α → Build β} {ss : List Store} (hx : Emits x [])
    (hf : ∀ a, Emits (f a) ss) : Emits (x >>= f) ss := hx.bind hf

theorem emits_add (s : Store) : Emits (add (·.store s)) [s] := by
  intro b a c h
  have hc : (b.store s).2 = c := (Prod.mk.inj (Except.ok.inj h)).2
  subst hc
  obtain ⟨-, hheaps⟩ := b.store_heapsOnly s
  refine ⟨hheaps.symm, fun hb => ?_⟩
  rw [Builder.RowsFit, Builder.store_rows]
  exact hb

theorem emits_change {f : Builder → Builder}
    (h : ∀ b : Builder, (f b).heapsOnly = b.heapsOnly ∧ (b.RowsFit → (f b).RowsFit)) :
    Emits (change f) [] := by
  intro b a c hc
  cases hc
  exact h b

theorem emits_mapM {f : α → Build β} {g : α → List Store} (h : ∀ x, Emits (f x) (g x)) :
    ∀ xs : List α, Emits (xs.mapM f) (xs.flatMap g)
  | [] => emits_pure []
  | x :: xs => by
    rw [List.mapM_cons, List.flatMap_cons]
    refine (h x).bind fun r => ?_
    have hrest := (emits_mapM h xs).bind fun rs => emits_pure (r :: rs)
    rwa [List.append_nil] at hrest

theorem emits_cell (x : Cell) : Emits (cell x) x.stores := by
  cases x with
  | number n => exact emits_pure n
  | string s => exact emits_add (.string s)
  | blob data => exact emits_add (.blob data)
  | guid g => exact emits_add (.guid g)

theorem heapsOnly_addRow {b c : Builder} {t : TableId} {cells : List Nat} {n : Nat}
    (h : b.addRow t cells = .ok (n, c)) : c.heapsOnly = b.heapsOnly := by
  rw [Builder.addRow] at h
  split at h
  · cases h
  · cases h
    rfl

theorem emits_row (t : TableId) (cells : List Cell) :
    Emits (row t cells) (cells.flatMap Cell.stores) := by
  rw [row, ← List.append_nil (cells.flatMap Cell.stores)]
  refine (emits_mapM emits_cell cells).bind fun values => ?_
  intro b n d h
  obtain ⟨b', c, hget, h⟩ := StateT.bind_ok h
  cases hget
  obtain ⟨⟨n', c⟩, c', hadd, h⟩ := StateT.bind_ok h
  cases hrow : b.addRow t values with
  | error f =>
    rw [hrow] at hadd
    cases hadd
  | ok r =>
    rw [hrow] at hadd
    cases hadd
    cases h
    exact ⟨heapsOnly_addRow hrow, fun hb => hb.addRow hrow⟩

theorem emits_body (parts : List BodyPart) : Emits (body parts) (bodyStores parts) := by
  intro b a d h
  obtain ⟨bytes, c, hlift, h⟩ := StateT.bind_ok h
  cases hbytes : encodeBody parts with
  | error f =>
    rw [hbytes] at hlift
    cases hlift
  | ok bs =>
    rw [hbytes] at hlift
    cases hlift
    rw [bodyStores, hbytes]
    exact emits_add (.body bytes) b a d h

theorem emits_nextRow (t : TableId) : Emits (nextRow t) [] := by
  intro b a c h
  cases h
  exact ⟨rfl, id⟩

theorem stores_numbers (ns : List Nat) : (ns.map Cell.number).flatMap Cell.stores = [] := by
  rw [List.flatMap_map, List.flatMap_eq_nil_iff]
  exact fun _ _ => rfl

/-- What the addition of a step does to the heaps. -/
theorem emits_addition (s : Step) : Emits (addition s) s.stores := by
  cases s with
  | setWide _ | setEntryPoint _ | setVersion _ | setWideHeaps _ _ _ | setSorted _ =>
    exact emits_change fun b => ⟨rfl, id⟩
  | pad t n => exact emits_change fun b => ⟨rfl, fun hb => hb.pad t n⟩
  | string s => exact emits_add (.string s)
  | blob data => exact emits_add (.blob data)
  | literal s => exact emits_add (.literal s)
  | guid g => exact emits_add (.guid g)
  | rowCount t =>
    intro b a c h
    cases h
    exact ⟨rfl, id⟩
  | body parts => exact emits_body parts
  | row t cells => exact emits_row t cells
  | module name => exact (emits_add (.guid moduleGuid)).bind fun _ => emits_row .module _
  | assembly name version =>
    have h := emits_row .assembly ([.number 0x8004] ++ version.map .number
      ++ [.number 0, .number 0, .string name, .number 0])
    rwa [List.flatMap_append, List.flatMap_append, stores_numbers] at h
  | assemblyRef name version =>
    have h := emits_row .assemblyRef (version.map .number
      ++ [.number 0, .number 0, .string name, .number 0, .number 0])
    rwa [List.flatMap_append, stores_numbers] at h
  | typeDef flags space name base =>
    exact (emits_nextRow .field).after fun _ => (emits_nextRow .methodDef).after fun _ =>
      emits_row .typeDef _
  | method flags name sig parts? =>
    cases parts? with
    | none =>
      exact (emits_pure 0).after fun _ => (emits_nextRow .param).after fun _ =>
        emits_row .methodDef _
    | some parts =>
      exact (emits_body parts).bind fun _ => (emits_nextRow .param).after fun _ =>
        emits_row .methodDef _
  | typeRef _ _ _ | field _ _ _ | param _ _ _ | memberRef _ _ _ | standAloneSig _ | typeSpec _ =>
    exact emits_row _ _

theorem emits_step (s : Step) : Emits (step s) s.stores := by
  have hlift : Emits (do return ((← addition s : Nat) : Int)) s.stores := by
    have h := (emits_addition s).bind fun v => emits_pure (v : Int)
    rwa [List.append_nil] at h
  cases s with
  | rowCount t =>
    intro b a c h
    cases h
    exact ⟨rfl, id⟩
  | _ => exact hlift

/-- The number of a step that asks for one thing is the answer. -/
theorem step_answer {s : Step} {st : Store} {b c : Builder} {r : Int}
    (hs : s.request? = some st) (h : step s b = .ok (r, c)) :
    s.stores = [st] ∧ r = ((b.store st).1 : Int) := by
  cases s with
  | string s | blob data | literal s | guid g =>
    cases hs
    exact ⟨rfl, (Prod.mk.inj (Except.ok.inj h)).1.symm⟩
  | body parts =>
    cases hbytes : encodeBody parts with
    | error f =>
      rw [Step.request?, bodyStores, hbytes] at hs
      cases hs
    | ok bytes =>
      rw [Step.request?, bodyStores, hbytes] at hs
      cases hs
      refine ⟨by rw [Step.stores, bodyStores, hbytes], ?_⟩
      obtain ⟨v, d, hv, hr⟩ := StateT.bind_ok h
      cases hr
      obtain ⟨bytes', e, hlift, hadd⟩ := StateT.bind_ok hv
      rw [hbytes] at hlift
      cases hlift
      exact congrArg Nat.cast (Prod.mk.inj (Except.ok.inj hadd)).1.symm
  | _ => cases hs

/-- The answers are in the journal, each with its request. -/
theorem answered : ∀ (steps : List Step) (b : Builder) (results : List Int) (c : Builder),
    steps.mapM step b = .ok (results, c) →
      ∀ (k : Nat) (s : Step) (st : Store) (r : Int), steps[k]? = some s → s.request? = some st →
        results[k]? = some r →
          ∃ v : Nat, r = v ∧ (st, v) ∈ (b.heapsOnly.storeAll (steps.flatMap Step.stores)).1
  | [], _, _, _, _, k, s, _, _, hs, _, _ => by
    rw [List.getElem?_nil] at hs
    cases hs
  | s :: steps, b, results, d, h, k, s', st, r, hs, hst, hr => by
    rw [List.mapM_cons] at h
    obtain ⟨v, c, hstep, h⟩ := StateT.bind_ok h
    obtain ⟨rs, d, hrest, h⟩ := StateT.bind_ok h
    cases h
    rw [List.flatMap_cons, Builder.storeAll_append, ← (emits_step s b v c hstep).1]
    cases k with
    | zero =>
      cases hs
      cases hr
      obtain ⟨hstores, hv⟩ := step_answer hst hstep
      refine ⟨(b.store st).1, hv, List.mem_append_left _ ?_⟩
      rw [hstores, ← (b.store_heapsOnly st).1]
      exact List.mem_singleton_self _
    | succ k =>
      rw [List.getElem?_cons_succ] at hs hr
      obtain ⟨w, hw, hmem⟩ := answered steps c rs d hrest k s' st r hs hst hr
      exact ⟨w, hw, List.mem_append_right _ hmem⟩

end Build

/-- **The journal describes the builder.** Steps that can be carried out leave the heaps that their
stores make, and rows that fit their tables; the number of a step that stores one thing is in
the journal. -/
theorem journal_of_build {steps : List Step} {results : List Int} {b : Builder}
    (h : build steps = .ok (results, b)) :
    b.heapsOnly = (Builder.empty.storeAll (steps.flatMap Step.stores)).2 ∧ b.RowsFit
      ∧ ∀ (k : Nat) (s : Step) (st : Store) (r : Int), steps[k]? = some s → s.request? = some st →
          results[k]? = some r → ∃ v : Nat, r = v ∧ (st, v) ∈ journal steps := by
  obtain ⟨hheaps, hfit⟩ :=
    Build.emits_mapM Build.emits_step steps Builder.empty results b h
  have hempty : Builder.empty.RowsFit := by
    intro t row hrow
    rw [Builder.empty, TableMap.get_ofFn] at hrow
    exact absurd hrow List.not_mem_nil
  exact ⟨hheaps, hfit hempty, Build.answered steps Builder.empty results b h⟩

end ManagedImage.Assemble
