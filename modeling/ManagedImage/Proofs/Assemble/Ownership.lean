/-
Owners and members of an assembled image.

A type or a method names the row that the next field, method or parameter will have, so
whatever is added up to the next owner is its own. Whether that is what the reader finds
is a question of counting. `Build.AddsRow` says what a step does to the rows: it appends
one to a table, and what stands in its list column is one more than the rows the member
table has at that moment. `Tallied` is what this amounts to over all steps so far, in
terms of the journal of the steps with their numbers: `added` picks out the numbers of
one table, and they are the rows from one on.

On the reader's side an owner's run goes from its own start to that of the next owner.
The starts count the members before either, so what lies between them are the members
that were added in between. A start one past the last member has to fit the column, which
is two bytes wide up to 65535 rows; with exactly that many it does not.
-/
import ManagedImage.Proofs.Assemble.Journal
import ManagedImage.Proofs.Metadata.Ownership

set_option autoImplicit false

namespace ManagedImage

namespace OwnerList

/-- The tables that own members or are owned through a list. -/
def tables : List TableId := [.typeDef, .field, .methodDef, .param]

variable {l : OwnerList}

theorem eq_of_ofChild? (hl : ofChild? l.child = some l) :
    l = fields ∨ l = methods ∨ l = params := by
  unfold ofChild? at hl
  split at hl
  · exact Or.inl (Option.some.inj hl).symm
  · exact Or.inr (Or.inl (Option.some.inj hl).symm)
  · exact Or.inr (Or.inr (Option.some.inj hl).symm)
  · cases hl

/-- An owning table and the owned one are two of the tables. -/
theorem tables_of_ofChild? (hl : ofChild? l.child = some l) :
    l.owner ∈ tables ∧ l.child ∈ tables ∧ l.owner ≠ l.child := by
  rcases eq_of_ofChild? hl with rfl | rfl | rfl <;> decide

end OwnerList

namespace Assemble

/-! ## The rows that steps add -/

/-- The table that a step adds a row to. -/
def Step.adds? : Step → Option TableId
  | .row t _ => some t
  | .module _ => some .module
  | .assembly _ _ => some .assembly
  | .assemblyRef _ _ => some .assemblyRef
  | .typeRef _ _ _ => some .typeRef
  | .typeDef _ _ _ _ => some .typeDef
  | .field _ _ _ => some .field
  | .method _ _ _ _ => some .methodDef
  | .param _ _ _ => some .param
  | .memberRef _ _ _ => some .memberRef
  | .standAloneSig _ => some .standAloneSig
  | .typeSpec _ => some .typeSpec
  | .setWide _ | .setEntryPoint _ | .setVersion _ | .setWideHeaps _ _ _ | .string _ | .blob _
  | .literal _ | .guid _ | .pad _ _ | .setSorted _ | .rowCount _ | .body _ => none

/-- A step that leaves owners and members to the calls that are meant for them. -/
def Step.Calls : Step → Prop
  | .row t _ | .pad t _ => t ∉ OwnerList.tables
  | _ => True

/-- The number of the next row of a table, as `Build.nextRow` gives it. -/
def nextNumber (rows : TableMap TableRows) (t : TableId) : Nat :=
  (((rows.get t).balance + 1) % 0x100000000).toNat

namespace Build

variable {α β : Type}

/-- Whenever the computation ends without a fault, the rows are as they were. -/
def KeepsRows (x : Build α) : Prop :=
  ∀ (b : Builder) (a : α) (c : Builder), x b = .ok (a, c) → c.rows = b.rows

/-- Whenever the computation ends without a fault, it has appended a row to a table and given its
number; the row satisfies `Q` together with the rows before it. -/
def AddsRow (x : Build Nat) (t : TableId) (Q : TableMap TableRows → List Nat → Prop) : Prop :=
  ∀ (b : Builder) (n : Nat) (c : Builder), x b = .ok (n, c) →
    ∃ row, c.rows = b.rows.set t ⟨(b.rows.get t).explicit.push row, (b.rows.get t).padding⟩
      ∧ n = (b.rows.get t).explicit.size + 1 ∧ Q b.rows row

/-! ### Computations that leave the rows alone -/

theorem keepsRows_pure (a : α) : KeepsRows (pure a) := by
  intro b a' c h
  cases h
  rfl

theorem KeepsRows.bind {x : Build α} {f : α → Build β} (hx : KeepsRows x)
    (hf : ∀ a, KeepsRows (f a)) : KeepsRows (x >>= f) := by
  intro b r d h
  obtain ⟨a, c, hxb, hfc⟩ := StateT.bind_ok h
  rw [hf a c r d hfc, hx b a c hxb]

theorem keepsRows_add (s : Store) : KeepsRows (add (·.store s)) := by
  intro b a c h
  have hc : (b.store s).2 = c := (Prod.mk.inj (Except.ok.inj h)).2
  rw [← hc, Builder.store_rows]

theorem keepsRows_change {f : Builder → Builder} (h : ∀ b : Builder, (f b).rows = b.rows) :
    KeepsRows (change f) := by
  intro b a c hc
  cases hc
  exact h b

theorem keepsRows_body (parts : List BodyPart) : KeepsRows (body parts) := by
  have hlift : KeepsRows (liftM (encodeBody parts) : Build (List UInt8)) := by
    intro b a c h
    cases hbytes : encodeBody parts with
    | error f =>
      rw [hbytes] at h
      cases h
    | ok bytes =>
      rw [hbytes] at h
      cases h
      rfl
  exact hlift.bind fun bytes => keepsRows_add (.body bytes)

theorem keepsRows_cell (x : Cell) : KeepsRows (cell x) := by
  cases x with
  | number n => exact keepsRows_pure n
  | string s => exact keepsRows_add (.string s)
  | blob data => exact keepsRows_add (.blob data)
  | guid g => exact keepsRows_add (.guid g)

/-- The numbers among the cells stand in the row. -/
def Holds (cells : List Cell) (row : List Nat) : Prop :=
  ∀ (j v : Nat), cells[j]? = some (.number v) → row[j]? = some v

/-- The cells of a row, by induction: each number is taken as it is. -/
theorem cells_spec : ∀ (cells : List Cell) (b : Builder) (row : List Nat) (c : Builder),
    cells.mapM cell b = .ok (row, c) →
      c.rows = b.rows ∧ Holds cells row := by
  intro cells
  induction cells with
  | nil =>
    intro b row c h
    cases h
    exact ⟨rfl, fun j v hv => by rw [List.getElem?_nil] at hv; cases hv⟩
  | cons x cells ih =>
    intro b row d h
    rw [List.mapM_cons] at h
    obtain ⟨v, c, hx, h⟩ := StateT.bind_ok h
    obtain ⟨vs, d, hrest, h⟩ := StateT.bind_ok h
    cases h
    obtain ⟨hrows, hnumbers⟩ := ih c vs d hrest
    refine ⟨by rw [hrows, keepsRows_cell x b v c hx], fun j w hw => ?_⟩
    cases j with
    | zero =>
      rw [List.getElem?_cons_zero, Option.some.injEq] at hw
      subst hw
      cases hx
      rfl
    | succ j => exact hnumbers j w hw

/-! ### Computations that append a row -/

theorem addsRow_row (t : TableId) (cells : List Cell) :
    AddsRow (row t cells) t fun _ row => Holds cells row := by
  intro b n d h
  obtain ⟨values, c, hcells, h⟩ := StateT.bind_ok h
  obtain ⟨hrows, hnumbers⟩ := cells_spec cells b values c hcells
  obtain ⟨c', c'', hget, h⟩ := StateT.bind_ok h
  cases hget
  obtain ⟨⟨n', d'⟩, c', hadd, h⟩ := StateT.bind_ok h
  rw [Builder.addRow] at hadd
  split at hadd
  · cases hadd
  · cases hadd
    cases h
    refine ⟨values, ?_, ?_, hnumbers⟩
    · rw [← hrows]
    · rw [← hrows]
      exact Array.size_push ..

theorem AddsRow.weaken {x : Build Nat} {t : TableId} {Q R : TableMap TableRows → List Nat → Prop}
    (h : AddsRow x t Q) (hQR : ∀ rows row, Q rows row → R rows row) : AddsRow x t R := by
  intro b n c hx
  obtain ⟨row, hrows, hn, hrow⟩ := h b n c hx
  exact ⟨row, hrows, hn, hQR _ _ hrow⟩

theorem KeepsRows.addsRow {x : Build α} {f : α → Build Nat} {t : TableId}
    {Q : TableMap TableRows → List Nat → Prop} (hx : KeepsRows x)
    (hf : ∀ a, AddsRow (f a) t Q) : AddsRow (x >>= f) t Q := by
  intro b n d h
  obtain ⟨a, c, hxb, hfc⟩ := StateT.bind_ok h
  rw [← hx b a c hxb]
  exact hf a c n d hfc

/-- What is read as the next number of a table is that of the rows before the new one. -/
theorem AddsRow.after_nextRow {f : Nat → Build Nat} {t u : TableId}
    {Q : Nat → TableMap TableRows → List Nat → Prop} (hf : ∀ a, AddsRow (f a) t (Q a)) :
    AddsRow (nextRow u >>= f) t fun rows row => Q (nextNumber rows u) rows row := by
  intro b n d h
  obtain ⟨a, c, hnext, hfc⟩ := StateT.bind_ok h
  cases hnext
  exact hf _ b n d hfc

/-- The list columns of a new row hold the next numbers of the member tables. -/
def Lists (t : TableId) (rows : TableMap TableRows) (row : List Nat) : Prop :=
  ∀ l : OwnerList, OwnerList.ofChild? l.child = some l → l.owner = t →
    row[l.column]? = some (nextNumber rows l.child)

/-- Only types and methods have list columns. -/
theorem lists_of_ne {t : TableId} (htype : t ≠ .typeDef) (hmethod : t ≠ .methodDef)
    (rows : TableMap TableRows) (row : List Nat) : Lists t rows row := by
  rintro l hl rfl
  rcases OwnerList.eq_of_ofChild? hl with rfl | rfl | rfl
  · exact absurd rfl htype
  · exact absurd rfl htype
  · exact absurd rfl hmethod

/-- **What a step does to the rows**: it appends one to the table it adds to, with the list columns
filled in, or leaves all owners and members alone. -/
theorem addition_rows {s : Step} (hs : s.Calls) : match s.adds? with
    | some t => AddsRow (addition s) t (Lists t)
    | none => ∀ (b : Builder) (n : Nat) (c : Builder), addition s b = .ok (n, c) →
        ∀ t ∈ OwnerList.tables, c.rows.get t = b.rows.get t := by
  have hkeep : ∀ {x : Build Nat}, KeepsRows x → ∀ (b : Builder) (n : Nat) (c : Builder),
      x b = .ok (n, c) → ∀ t ∈ OwnerList.tables, c.rows.get t = b.rows.get t := by
    intro x hx b n c h t _
    rw [hx b n c h]
  cases s with
  | setWide _ | setEntryPoint _ | setVersion _ | setWideHeaps _ _ _ | setSorted _ =>
    exact hkeep (keepsRows_change fun b => rfl)
  | string s => exact hkeep (keepsRows_add (.string s))
  | blob data => exact hkeep (keepsRows_add (.blob data))
  | literal s => exact hkeep (keepsRows_add (.literal s))
  | guid g => exact hkeep (keepsRows_add (.guid g))
  | body parts => exact hkeep (keepsRows_body parts)
  | rowCount t =>
    intro b n c h
    cases h
    exact fun _ _ => rfl
  | pad t n =>
    intro b m c h u hu
    cases h
    show (b.rows.set t _).get u = _
    rw [TableMap.get_set, if_neg (ne_of_mem_of_not_mem hu hs).symm]
  | row t cells =>
    refine (addsRow_row t cells).weaken fun rows row _ => lists_of_ne ?_ ?_ rows row
    · exact fun h => hs (h ▸ by decide)
    · exact fun h => hs (h ▸ by decide)
  | module name =>
    exact (keepsRows_add (.guid moduleGuid)).addsRow fun _ => (addsRow_row _ _).weaken
      fun rows row _ => lists_of_ne (by decide) (by decide) rows row
  | typeDef flags space name base =>
    -- The numbers are read before the row is there, so they do not count it.
    refine (AddsRow.after_nextRow fun fields => AddsRow.after_nextRow fun methods =>
      addsRow_row .typeDef _).weaken fun rows row hrow => ?_
    rintro l hl howner
    rcases OwnerList.eq_of_ofChild? hl with rfl | rfl | rfl
    · exact hrow 4 _ rfl
    · exact hrow 5 _ rfl
    · cases howner
  | method flags name sig parts? =>
    have hrest : ∀ address : Nat, AddsRow (do
        let params ← nextRow .param
        row .methodDef [.number address, .number 0, .number flags, .string name, .blob sig,
          .number params]) .methodDef (Lists .methodDef) := by
      intro address
      refine (AddsRow.after_nextRow fun params => addsRow_row .methodDef _).weaken
        fun rows row hrow => ?_
      rintro l hl howner
      rcases OwnerList.eq_of_ofChild? hl with rfl | rfl | rfl
      · cases howner
      · cases howner
      · exact hrow 5 _ rfl
    cases parts? with
    | none => exact hrest 0
    | some parts => exact (keepsRows_body parts).addsRow hrest
  | assembly _ _ | assemblyRef _ _ | typeRef _ _ _ | field _ _ _ | param _ _ _ | memberRef _ _ _
  | standAloneSig _ | typeSpec _ =>
    exact (addsRow_row _ _).weaken fun rows row _ =>
      lists_of_ne (by decide) (by decide) rows row

/-- The same for the step and its number, for one of the tables. -/
theorem step_rows {s : Step} (hs : s.Calls) {b c : Builder} {r : Int} (h : step s b = .ok (r, c))
    {t : TableId} (ht : t ∈ OwnerList.tables) :
    (s.adds? ≠ some t → c.rows.get t = b.rows.get t)
      ∧ (s.adds? = some t → ∃ row,
          c.rows.get t = ⟨(b.rows.get t).explicit.push row, (b.rows.get t).padding⟩
            ∧ r = ((b.rows.get t).explicit.size + 1 : Nat) ∧ Lists t b.rows row) := by
  have hadd := addition_rows hs
  have hnumber : s.adds? = none ∧ c = b ∨ ∃ n : Nat, r = n ∧ addition s b = .ok (n, c) := by
    cases s with
    | rowCount t =>
      cases h
      exact Or.inl ⟨rfl, rfl⟩
    | _ =>
      obtain ⟨n, c', hn, hr⟩ := StateT.bind_ok h
      cases hr
      exact Or.inr ⟨n, rfl, hn⟩
  rcases hnumber with ⟨hnone, rfl⟩ | ⟨n, rfl, hn⟩
  · exact ⟨fun _ => rfl, fun hsome => by rw [hnone] at hsome; cases hsome⟩
  · cases hadds : s.adds? with
    | none =>
      rw [hadds] at hadd
      exact ⟨fun _ => hadd b n c hn t ht, fun hsome => by cases hsome⟩
    | some u =>
      rw [hadds] at hadd
      obtain ⟨row, hrows, hnum, hlists⟩ := hadd b n c hn
      rw [hrows, TableMap.get_set]
      refine ⟨fun hne => if_neg fun hut => hne (congrArg some hut), fun heq => ?_⟩
      obtain rfl := Option.some.inj heq
      exact ⟨row, if_pos rfl, congrArg Nat.cast hnum, hlists⟩

end Build

/-! ## The tally -/

/-- The numbers of the rows that some steps added to a table. -/
def added (calls : List (Step × Int)) (t : TableId) : List Int :=
  (calls.filter fun c => c.1.adds? = some t).map (·.2)

/-- The numbers of `count` rows from `first` on. -/
def numbers (first count : Nat) : List Int := (List.range' first count).map Int.ofNat

section Added

variable (calls : List (Step × Int)) (t : TableId)

theorem added_append (more : List (Step × Int)) :
    added (calls ++ more) t = added calls t ++ added more t := by
  simp [added]

theorem added_cons_of_eq {c : Step × Int} (h : c.1.adds? = some t) :
    added (c :: calls) t = c.2 :: added calls t := by
  simp [added, h]

theorem added_cons_of_ne {c : Step × Int} (h : c.1.adds? ≠ some t) :
    added (c :: calls) t = added calls t := by
  simp [added, h]

@[simp] theorem added_nil : added [] t = [] := rfl

/-- The call that added a row is found by counting. -/
theorem exists_call {k : Nat} (hk : k < (added calls t).length) :
    ∃ before c after, calls = before ++ c :: after ∧ c.1.adds? = some t
      ∧ (added before t).length = k := by
  induction calls generalizing k with
  | nil => simp at hk
  | cons c calls ih =>
    by_cases hc : c.1.adds? = some t
    · rw [added_cons_of_eq calls t hc, List.length_cons] at hk
      cases k with
      | zero => exact ⟨[], c, calls, rfl, hc, rfl⟩
      | succ k =>
        obtain ⟨before, d, after, rfl, hd, hcount⟩ := ih (Nat.lt_of_succ_lt_succ hk)
        refine ⟨c :: before, d, after, rfl, hd, ?_⟩
        rw [added_cons_of_eq before t hc, List.length_cons, hcount]
    · rw [added_cons_of_ne calls t hc] at hk
      obtain ⟨before, d, after, rfl, hd, hcount⟩ := ih hk
      refine ⟨c :: before, d, after, rfl, hd, ?_⟩
      rw [added_cons_of_ne before t hc, hcount]

end Added

/-- What the rows of a builder say about the steps that were carried out. -/
structure Tallied (calls : List (Step × Int)) (b : Builder) : Prop where
  bare : ∀ t ∈ OwnerList.tables, (b.rows.get t).padding = 0
  numbered : ∀ t ∈ OwnerList.tables, added calls t = numbers 1 (b.rows.get t).explicit.size
  starts : ∀ l : OwnerList, OwnerList.ofChild? l.child = some l →
    ∀ before c after, calls = before ++ c :: after → c.1.adds? = some l.owner →
      ∃ row, (b.rows.get l.owner).explicit[(added before l.owner).length]? = some row
        ∧ row[l.column]? = some (((added before l.child).length + 1) % 0x100000000)

namespace Tallied

variable {calls : List (Step × Int)} {b : Builder}

theorem size_eq (h : Tallied calls b) {t : TableId} (ht : t ∈ OwnerList.tables) :
    (b.rows.get t).explicit.size = (added calls t).length := by
  rw [h.numbered t ht, numbers, List.length_map, List.length_range']

/-- The next number counts the rows that were added. -/
theorem nextNumber_eq (h : Tallied calls b) {t : TableId} (ht : t ∈ OwnerList.tables) :
    nextNumber b.rows t = ((added calls t).length + 1) % 0x100000000 := by
  rw [nextNumber, TableRows.balance, h.bare t ht, ← h.size_eq ht]
  omega

/-- **One step** keeps the tally. -/
theorem step (h : Tallied calls b) {s : Step} (hs : s.Calls) {r : Int} {c : Builder}
    (hstep : Build.step s b = .ok (r, c)) : Tallied (calls ++ [(s, r)]) c := by
  have hrows := fun t (ht : t ∈ OwnerList.tables) => Build.step_rows hs hstep ht
  have hold : ∀ t ∈ OwnerList.tables, ∀ (i : Nat) (row : List Nat),
      (b.rows.get t).explicit[i]? = some row → (c.rows.get t).explicit[i]? = some row := by
    intro t ht i row hrow
    by_cases hadds : s.adds? = some t
    · obtain ⟨new, hnew, -, -⟩ := (hrows t ht).2 hadds
      obtain ⟨hi, -⟩ := Array.getElem?_eq_some_iff.mp hrow
      rw [hnew, Array.getElem?_push, if_neg (Nat.ne_of_lt hi)]
      exact hrow
    · rw [(hrows t ht).1 hadds]
      exact hrow
  refine ⟨fun t ht => ?_, fun t ht => ?_, ?_⟩
  · by_cases hadds : s.adds? = some t
    · obtain ⟨new, hnew, -, -⟩ := (hrows t ht).2 hadds
      rw [hnew]
      exact h.bare t ht
    · rw [(hrows t ht).1 hadds]
      exact h.bare t ht
  · rw [added_append, h.numbered t ht]
    by_cases hadds : s.adds? = some t
    · obtain ⟨new, hnew, hr, -⟩ := (hrows t ht).2 hadds
      rw [hnew, added_cons_of_eq _ _ hadds, added_nil, Array.size_push, hr, numbers, numbers,
        List.range'_concat, List.map_append]
      simp [Nat.add_comm]
    · rw [(hrows t ht).1 hadds, added_cons_of_ne _ _ hadds, added_nil, List.append_nil]
  · intro l hl before d after hsplit hd
    obtain ⟨howner, hchild, -⟩ := OwnerList.tables_of_ofChild? hl
    -- The owner is an earlier call or the one at hand.
    rcases List.eq_nil_or_concat after with rfl | ⟨after', e, rfl⟩
    · obtain ⟨rfl, hlast⟩ := List.append_inj' hsplit rfl
      obtain rfl := (List.cons.inj hlast).1
      obtain ⟨new, hnew, -, hlists⟩ := (hrows _ howner).2 hd
      refine ⟨new, ?_, ?_⟩
      · rw [hnew, ← h.size_eq howner]
        exact Array.getElem?_push_size
      · rw [← h.nextNumber_eq hchild]
        exact hlists l hl rfl
    · have hcalls : calls = before ++ d :: after' := by
        have hassoc : before ++ d :: (after' ++ [e]) = (before ++ d :: after') ++ [e] := by simp
        rw [List.concat_eq_append, hassoc] at hsplit
        exact (List.append_inj' hsplit rfl).1
      obtain ⟨row, hrow, hcell⟩ := h.starts l hl before d after' hcalls hd
      exact ⟨row, hold _ howner _ _ hrow, hcell⟩

theorem empty : Tallied [] Builder.empty := by
  have hrows : ∀ t, Builder.empty.rows.get t = ⟨#[], 0⟩ := by
    intro t
    rw [Builder.empty, TableMap.get_ofFn]
  refine ⟨fun t _ => ?_, fun t _ => ?_, fun l _ before c after hsplit _ => ?_⟩
  · rw [hrows]
  · rw [hrows]
    rfl
  · simp at hsplit

/-- **All steps**, by induction: the tally is kept by each. -/
theorem steps : ∀ (steps : List Step) {calls : List (Step × Int)} {b c : Builder}
    {results : List Int}, (∀ s ∈ steps, s.Calls) → Tallied calls b →
      steps.mapM Build.step b = .ok (results, c) → Tallied (calls ++ steps.zip results) c := by
  intro steps
  induction steps with
  | nil =>
    intro calls b c results _ h hrun
    cases hrun
    rwa [List.zip_nil_left, List.append_nil]
  | cons s steps ih =>
    intro calls b d results hs h hrun
    rw [List.mapM_cons] at hrun
    obtain ⟨r, c, hstep, hrun⟩ := StateT.bind_ok hrun
    obtain ⟨rs, d', hrest, hrun⟩ := StateT.bind_ok hrun
    cases hrun
    have hnext := ih (fun t ht => hs t (List.mem_cons_of_mem _ ht))
      (h.step (hs s (List.mem_cons_self ..)) hstep) hrest
    rwa [List.append_assoc] at hnext

end Tallied

theorem tallied_of_build {steps : List Step} {results : List Int} {b : Builder}
    (hcalls : ∀ s ∈ steps, s.Calls) (h : build steps = .ok (results, b)) :
    Tallied (steps.zip results) b :=
  Tallied.empty.steps steps hcalls h

/-! ## Numbers -/

theorem length_numbers (first count : Nat) : (numbers first count).length = count := by
  rw [numbers, List.length_map, List.length_range']

theorem numbers_add (first m n : Nat) :
    numbers first (m + n) = numbers first m ++ numbers (first + m) n := by
  rw [numbers, numbers, numbers, ← List.map_append, List.range'_append_1]

/-- The tokens of numbered rows are those of a run. -/
theorem map_make_numbers (t : TableId) (first count : Nat) :
    (numbers first count).map (fun n => Token.make t n.toNat)
      = (List.range' first count).map (Token.make t) := by
  rw [numbers, List.map_map]
  rfl

theorem getLast?_numbers (count : Nat) :
    (numbers 1 count).getLast? = if count = 0 then none else some (count : Int) := by
  cases count with
  | zero => rfl
  | succ n =>
    rw [numbers_add, List.getLast?_append, if_neg (Nat.succ_ne_zero n)]
    simp [numbers, Nat.add_comm]

section Journal

variable {calls before mid after : List (Step × Int)} {t : TableId} {count : Nat}

/-- What steps in between add is numbered from behind what was added before them. -/
theorem added_between (h : added calls t = numbers 1 count)
    (hsplit : calls = before ++ mid ++ after) :
    added mid t = numbers ((added before t).length + 1) (added mid t).length := by
  have hcount : (added calls t).length = count := by rw [h, length_numbers]
  rw [← hcount, hsplit, added_append, added_append, List.length_append, List.length_append,
    numbers_add, numbers_add] at h
  obtain ⟨hfront, -⟩ := List.append_inj h (by
    rw [List.length_append, List.length_append, length_numbers, length_numbers])
  obtain ⟨-, hmid⟩ := List.append_inj hfront (length_numbers _ _).symm
  rw [Nat.add_comm 1] at hmid
  exact hmid

/-- A step that adds a row gives the number behind those that were added before it. -/
theorem number_eq {c : Step × Int} (h : added calls t = numbers 1 count)
    (hsplit : calls = before ++ c :: after) (hc : c.1.adds? = some t) :
    c.2 = ((added before t).length + 1 : Nat) := by
  have hcall : calls = before ++ [c] ++ after := by simp [hsplit]
  have hmid := added_between h hcall
  rw [added_cons_of_eq _ _ hc, added_nil, List.length_singleton] at hmid
  exact (List.cons.inj hmid).1

variable (after t) in
/-- Up to the next step that adds to a table, nothing is added to it. -/
theorem split_at_next : added (after.takeWhile fun c => c.1.adds? ≠ some t) t = []
    ∧ (after = (after.takeWhile fun c => c.1.adds? ≠ some t)
      ∨ ∃ c rest, after = (after.takeWhile fun c => c.1.adds? ≠ some t) ++ c :: rest
          ∧ c.1.adds? = some t) := by
  induction after with
  | nil => exact ⟨rfl, Or.inl rfl⟩
  | cons c after ih =>
    by_cases hc : c.1.adds? = some t
    · rw [List.takeWhile_cons_of_neg (by simp [hc])]
      exact ⟨rfl, Or.inr ⟨c, after, rfl, hc⟩⟩
    · obtain ⟨hnone, hsplit⟩ := ih
      rw [List.takeWhile_cons_of_pos (by simp [hc]), added_cons_of_ne _ _ hc]
      refine ⟨hnone, hsplit.imp (congrArg (c :: ·)) ?_⟩
      rintro ⟨d, rest, hrest, hd⟩
      exact ⟨d, rest, congrArg (c :: ·) hrest, hd⟩

end Journal

/-! ## The image -/

/-- What a journal of steps and the image agree on about an owning table and its members. -/
structure OwnersAgree (calls : List (Step × Int)) (img : Image) (l : OwnerList) : Prop where
  /-- The owners are the rows that steps added. -/
  owners : added calls l.owner = numbers 1 (img.table l.owner).rows
  /-- The members are the rows that steps added. -/
  members : added calls l.child = numbers 1 (img.table l.child).rows
  /-- The run of an owner is what was added after it and before the next one. -/
  runs : ∀ before s n after, calls = before ++ (s, n) :: after → s.adds? = some l.owner →
    ∃ run, img.owned l n.toNat = .ok run
      ∧ run.tokens = (added (after.takeWhile fun c => c.1.adds? ≠ some l.owner) l.child).map
          fun m => Token.make l.child m.toNat
  /-- The owner of a member is the last one that was added before it, if there is one. -/
  declaring : ∀ before s n after, calls = before ++ (s, n) :: after → s.adds? = some l.child →
    img.declaring (Token.make l.child n.toNat)
      = .ok ((added before l.owner).getLast?.elim Token.null fun o => Token.make l.owner o.toNat)

/-- The rows of an owning table as the journal has them: each starts behind the members that were
added before it. -/
structure Placed (calls : List (Step × Int)) (img : Image) (l : OwnerList) : Prop where
  owners : added calls l.owner = numbers 1 (img.table l.owner).rows
  members : added calls l.child = numbers 1 (img.table l.child).rows
  starts : ∀ before c after, calls = before ++ c :: after → c.1.adds? = some l.owner →
    img.firstMember l ((added before l.owner).length + 1) = (added before l.child).length + 1

namespace Placed

variable {calls before after : List (Step × Int)} {c : Step × Int} {img : Image} {l : OwnerList}

theorem owners_eq (h : Placed calls img l) :
    (img.table l.owner).rows = (added calls l.owner).length := by
  rw [h.owners, length_numbers]

theorem members_eq (h : Placed calls img l) :
    (img.table l.child).rows = (added calls l.child).length := by
  rw [h.members, length_numbers]

/-- The run of an owner reaches over the members that were added up to the next owner. -/
theorem owned_eq (h : Placed calls img l) (hdiff : l.owner ≠ l.child)
    (hsplit : calls = before ++ c :: after) (hc : c.1.adds? = some l.owner) :
    ∃ run, img.owned l ((added before l.owner).length + 1) = .ok run ∧ run.table = l.child
      ∧ run.start = (added before l.child).length + 1
      ∧ run.size = (added (after.takeWhile fun c => c.1.adds? ≠ some l.owner) l.child).length := by
  obtain ⟨hnone, hnext⟩ := split_at_next after l.owner
  generalize after.takeWhile (fun c => c.1.adds? ≠ some l.owner) = mid at hnone hnext ⊢
  have hother : c.1.adds? ≠ some l.child := by
    rw [hc]
    exact fun heq => hdiff (Option.some.inj heq)
  have hfirst := h.starts before c after hsplit hc
  have howners := h.owners_eq
  have hmembers := h.members_eq
  rw [hsplit, added_append, added_cons_of_eq _ _ hc, List.length_append, List.length_cons]
    at howners
  rw [hsplit, added_append, added_cons_of_ne _ _ hother, List.length_append] at hmembers
  obtain ⟨run, hrun⟩ := owned_exists img l ((added before l.owner).length + 1) (by omega)
  obtain ⟨-, htable, hstart, hstop⟩ := owned_eq_ok.mp hrun
  rw [hfirst] at hstart
  refine ⟨run, hrun, htable, by omega, ?_⟩
  rw [RowRange.size]
  rcases hnext with rfl | ⟨d, rest, rfl, hd⟩
  · -- There is no owner behind this one, so the run ends with the members.
    rw [hnone, List.length_nil] at howners
    rw [if_neg (by omega)] at hstop
    omega
  · have hlater : (added (before ++ c :: mid) l.owner).length
        = (added before l.owner).length + 1 := by
      rw [added_append, added_cons_of_eq _ _ hc, hnone, List.length_append, List.length_singleton]
    have hnext := h.starts (before ++ c :: mid) d rest (by rw [hsplit]; simp) hd
    rw [hlater, added_append, added_cons_of_ne _ _ hother, List.length_append] at hnext
    rw [added_append, added_cons_of_eq _ _ hd, List.length_append, List.length_cons] at howners
    rw [added_append, List.length_append] at hmembers
    rw [if_pos (by omega), hnext] at hstop
    omega

/-- The owner found for a member is the last that was added before it. -/
theorem ownerRow_eq (h : Placed calls img l) (hdiff : l.owner ≠ l.child)
    (hsplit : calls = before ++ c :: after) (hc : c.1.adds? = some l.child) :
    img.ownerRow l ((added before l.child).length + 1) = (added before l.owner).length := by
  have hother : c.1.adds? ≠ some l.owner := by
    rw [hc]
    exact fun heq => hdiff (Option.some.inj heq).symm
  have howners := h.owners_eq
  rw [hsplit, added_append, added_cons_of_ne _ _ hother, List.length_append] at howners
  apply ManagedImage.ownerRow_eq (by omega)
  intro o hpos hle
  constructor
  · intro hfirst
    by_contra hlt
    -- An owner that was added later starts behind the member.
    obtain ⟨p, d, q, rfl, hd, hcount⟩ :=
      exists_call after l.owner (k := o - (added before l.owner).length - 1) (by omega)
    have hstart := h.starts (before ++ c :: p) d q (by rw [hsplit]; simp) hd
    rw [added_append, added_append, added_cons_of_ne _ _ hother, added_cons_of_eq _ _ hc,
      List.length_append, List.length_append, List.length_cons, hcount,
      show (added before l.owner).length + (o - (added before l.owner).length - 1) + 1 = o by omega]
      at hstart
    omega
  · intro hlt
    obtain ⟨p, d, q, rfl, hd, hcount⟩ := exists_call before l.owner (k := o - 1) (by omega)
    have hstart := h.starts p d (q ++ c :: after) (by rw [hsplit]; simp) hd
    rw [hcount, Nat.sub_add_cancel hpos] at hstart
    rw [hstart, added_append, List.length_append]
    omega

/-- The journal's view of owners and members is what the image answers. -/
theorem agree (h : Placed calls img l) (hl : OwnerList.ofChild? l.child = some l)
    (hsmall : (img.table l.child).rows < Token.rowSpan) : OwnersAgree calls img l := by
  obtain ⟨-, -, hdiff⟩ := OwnerList.tables_of_ofChild? hl
  refine ⟨h.owners, h.members, ?_, ?_⟩
  · intro before s n after hsplit hs
    obtain ⟨run, hrun, htable, hstart, hsize⟩ := h.owned_eq hdiff hsplit hs
    have hn : n = ((added before l.owner).length + 1 : Nat) := number_eq h.owners hsplit hs
    refine ⟨run, by rw [hn]; exact hrun, ?_⟩
    obtain ⟨-, hnext⟩ := split_at_next after l.owner
    have hmid : ∃ rest, calls
        = (before ++ [(s, n)]) ++ (after.takeWhile fun c => c.1.adds? ≠ some l.owner) ++ rest := by
      rcases hnext with hnext | ⟨d, rest, hnext, -⟩
      · exact ⟨[], by rw [hsplit, ← hnext]; simp⟩
      · exact ⟨d :: rest, by rw [List.append_assoc, ← hnext, hsplit]; simp⟩
    obtain ⟨rest, hmid⟩ := hmid
    have hother : s.adds? ≠ some l.child := by
      rw [hs]
      exact fun heq => hdiff (Option.some.inj heq)
    rw [added_between h.members hmid, added_append, added_cons_of_ne (c := (s, n)) _ _ hother,
      added_nil, List.append_nil, map_make_numbers, RowRange.tokens, htable, hstart, hsize]
  · intro before s n after hsplit hs
    have hn : n = ((added before l.child).length + 1 : Nat) := number_eq h.members hsplit hs
    have hmembers := h.members_eq
    rw [hsplit, added_append, added_cons_of_eq _ _ hs, List.length_append, List.length_cons]
      at hmembers
    have hfront : calls = [] ++ before ++ (s, n) :: after := hsplit
    have hbefore := added_between h.owners hfront
    rw [hn, Int.toNat_natCast, declaring_eq img hl (by omega) (by omega) hsmall,
      h.ownerRow_eq hdiff hsplit hs]
    rw [added_nil, List.length_nil] at hbefore
    rw [hbefore, getLast?_numbers, length_numbers]
    split <;> rfl

end Placed

section Reading

variable {calls : List (Step × Int)} {b : Builder} {img : Image} {l : OwnerList}

theorem Tallied.rowCount_eq (h : Tallied calls b) {t : TableId} (ht : t ∈ OwnerList.tables) :
    b.rowCount t = (b.rows.get t).explicit.size := by
  rw [Builder.rowCount, TableRows.count, TableRows.balance, h.bare t ht]
  omega

/-- **The start of an owner**: one more than the members added before it, since the column is wide
enough for that. -/
theorem Tallied.firstMember_eq (h : Tallied calls b) (hfit : b.RowsFit)
    (hsize : b.bytes.size < 0x20000000) (hr : b.ReadBack img)
    (hl : OwnerList.ofChild? l.child = some l) (hne : b.rowCount l.child ≠ 0xFFFF)
    {before after : List (Step × Int)} {c : Step × Int} (hsplit : calls = before ++ c :: after)
    (hc : c.1.adds? = some l.owner) :
    img.firstMember l ((added before l.owner).length + 1) = (added before l.child).length + 1 := by
  obtain ⟨howner, hchild, -⟩ := OwnerList.tables_of_ofChild? hl
  obtain ⟨row, hrow, hcell⟩ := h.starts l hl before c after hsplit hc
  have hcount := h.rowCount_eq hchild
  have hbytes := b.rowCount_le_size hfit l.child
  rw [h.size_eq hchild, hsplit, added_append, List.length_append] at hcount
  -- A file this short has too few rows for their number to wrap around.
  rw [Nat.mod_eq_of_lt (by omega)] at hcell
  have hwritten : (b.writtenRows l.owner)[(added before l.owner).length]? = some row := by
    obtain ⟨hi, -⟩ := Array.getElem?_eq_some_iff.mp hrow
    rw [Builder.writtenRows, h.rowCount_eq howner, List.getElem?_take_of_lt hi,
      Array.getElem?_toList, hrow]
  have hwidth : (b.cellWidths l.owner)[l.column]? = some (b.cellWidth (.table l.child.code)) := by
    rw [Builder.cellWidths, List.getElem?_map]
    rcases OwnerList.eq_of_ofChild? hl with rfl | rfl | rfl <;> rfl
  have hnext : (added before l.child).length + 1 ≤ b.rowCount l.child + 1 := by omega
  have hkeep := Builder.row_lt_width hfit hsize (Or.inr ⟨hnext, hne⟩)
  have hread := Builder.cell_written hfit (hr.tables.layout _) (hr.tables.data _) hwritten hwidth
    hcell
  exact hread.trans (Nat.mod_eq_of_lt hkeep)

theorem Tallied.placed (h : Tallied calls b) (hfit : b.RowsFit)
    (hsize : b.bytes.size < 0x20000000) (hr : b.ReadBack img)
    (hl : OwnerList.ofChild? l.child = some l) (hne : b.rowCount l.child ≠ 0xFFFF) :
    Placed calls img l := by
  obtain ⟨howner, hchild, -⟩ := OwnerList.tables_of_ofChild? hl
  have hnumbered : ∀ t ∈ OwnerList.tables, added calls t = numbers 1 (img.table t).rows := by
    intro t ht
    have hrows : (img.table t).rows = b.rowCount t := hr.tables.rows t
    rw [hrows, h.rowCount_eq ht]
    exact h.numbered t ht
  exact ⟨hnumbered _ howner, hnumbered _ hchild,
    fun _ _ _ hsplit hc => h.firstMember_eq hfit hsize hr hl hne hsplit hc⟩

end Reading

/-- **Assembler and reader agree on owners.** If some steps can be carried out, none of which adds
owners or members other than by the calls for them, and the file they give is shorter than 2^29
bytes, it parses, and every list of members is as the steps made it: an owner has what was added
after it and before the next one, and a member belongs to the last owner added before it. The
member tables have fewer rows than a token tells apart, and none has exactly 65535. -/
theorem owners_roundTrip {steps : List Step} {results : List Int} {b : Builder}
    (h : build steps = .ok (results, b)) (hcalls : ∀ s ∈ steps, s.Calls)
    (hsize : b.bytes.size < 0x20000000)
    (hrows : ∀ t ∈ [TableId.field, .methodDef, .param],
      b.rowCount t < Token.rowSpan ∧ b.rowCount t ≠ 0xFFFF) :
    ∃ img : Image, Image.parse b.bytes = .ok img
      ∧ ∀ l ∈ [OwnerList.fields, .methods, .params], OwnersAgree (steps.zip results) img l := by
  obtain ⟨-, hfit, -⟩ := journal_of_build h
  obtain ⟨img, hparse, hr, -⟩ := Builder.parse_rowsFit hfit hsize
  refine ⟨img, hparse, fun l hl => ?_⟩
  have hlist : OwnerList.ofChild? l.child = some l
      ∧ l.child ∈ [TableId.field, .methodDef, .param] := by
    simp only [List.mem_cons, List.not_mem_nil, or_false] at hl
    rcases hl with rfl | rfl | rfl <;> exact ⟨rfl, by decide⟩
  obtain ⟨hsmall, hne⟩ := hrows _ hlist.2
  have hplaced := (tallied_of_build hcalls h).placed hfit hsize hr hlist.1 hne
  apply hplaced.agree hlist.1
  rwa [show (img.table l.child).rows = b.rowCount l.child from hr.tables.rows _]

/-- A parameter before all methods, and one that is added behind the next type. -/
def ownedSteps : List Step :=
  [.param 0 1 "early", .typeDef 0 "N" "A" 0, .field 6 "x" [6, 8], .method 0 "M" [0, 0, 1] none,
    .param 0 1 "p", .typeDef 0 "N" "B" 0, .field 6 "y" [6, 8], .param 0 2 "q"]

theorem owners_roundTrip_ownedSteps : ∃ (results : List Int) (b : Builder) (img : Image)
    (run : RowRange), build ownedSteps = .ok (results, b) ∧ Image.parse b.bytes = .ok img
      ∧ img.paramRange 1 = .ok run
      ∧ run.tokens = [Token.make .param 2, Token.make .param 3]
      ∧ img.declaring (Token.make .param 1) = .ok Token.null
      ∧ img.declaring (Token.make .field 2) = .ok (Token.make .typeDef 2) := by
  have hcalls : ∀ s ∈ ownedSteps, s.Calls := by
    simp [ownedSteps, Step.Calls]
  obtain ⟨_, b, hbuild, hsize, rfl, hrows⟩ := exists_build_of_short ownedSteps
    (p := fun results b => results = [1, 1, 1, 1, 2, 2, 2, 3]
      ∧ ∀ t ∈ [TableId.field, .methodDef, .param],
        b.rowCount t < Token.rowSpan ∧ b.rowCount t ≠ 0xFFFF) (by decide +kernel)
  obtain ⟨img, hparse, hagree⟩ := owners_roundTrip hbuild hcalls hsize hrows
  obtain ⟨run, hrun, htokens⟩ := (hagree .params (by simp)).runs
    [(.param 0 1 "early", 1), (.typeDef 0 "N" "A" 0, 1), (.field 6 "x" [6, 8], 1)] _ _ _ rfl rfl
  have hearly := (hagree .params (by simp)).declaring [] _ _ _ rfl rfl
  have hfield := (hagree .fields (by simp)).declaring
    [(.param 0 1 "early", 1), (.typeDef 0 "N" "A" 0, 1), (.field 6 "x" [6, 8], 1),
      (.method 0 "M" [0, 0, 1] none, 1), (.param 0 1 "p", 2), (.typeDef 0 "N" "B" 0, 2)]
    _ _ _ rfl rfl
  exact ⟨_, b, img, run, hbuild, hparse, hrun, htokens, hearly, hfield⟩

end Assemble

end ManagedImage
