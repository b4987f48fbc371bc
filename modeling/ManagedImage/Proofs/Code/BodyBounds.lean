/-
Bodies of bytes nobody vouches for.

The reader of a body checks a size and then takes words for granted that lie below it: the fields
behind the flags of a fat header, the code, the fields of a clause. It passes over what these reads
would report, so a missing word would count as zero (`Region.wordD`). Here the body is read once
more with every such read checked (`Strict`), and a word that is missing ends the reading. The loop
over the sections has no bound this time and ends because every turn advances.

Both readings give the same (`readStrict_eq`), for any bytes, also where they report a fault. So no
word is ever missing, and the bound of the loop is never reached.
-/
import ManagedImage.Proofs.Assemble.BodyAgreement
import ManagedImage.Proofs.Metadata.Streams

set_option autoImplicit false

namespace ManagedImage

namespace Body

/-! ## Readings with every check -/

/-- A reading that reports a fault or gives a result, unless a word that it takes for granted is
missing. -/
abbrev Strict (α : Type) : Type := ExceptT Fault (Except ByteFault) α

namespace Strict

variable {α β : Type}

/-- The reading that misses nothing and has this outcome. -/
def complete (x : Except Fault α) : Strict α := ExceptT.mk (.ok x)

theorem complete_bind (x : Except Fault α) (f : α → Except Fault β) :
    (complete x >>= fun a => complete (f a)) = complete (x >>= f) := by
  cases x <;> rfl

theorem complete_ok_bind (a : α) (f : α → Strict β) : complete (.ok a) >>= f = f a := rfl

theorem lift_ok {x : Except ByteFault α} {a : α} (h : x = .ok a) :
    (liftM x : Strict α) = complete (.ok a) := by
  rw [h]
  rfl

theorem mapM_complete {f : α → Except Fault β} {f' : α → Strict β} :
    ∀ xs : List α, (∀ a ∈ xs, f' a = complete (f a)) → xs.mapM f' = complete (xs.mapM f)
  | [], _ => rfl
  | x :: xs, h => by
    have hx := h x List.mem_cons_self
    have hxs := mapM_complete xs fun a ha => h a (List.mem_cons_of_mem x ha)
    rw [List.mapM_cons, List.mapM_cons, hx, hxs]
    cases f x with
    | error e => rfl
    | ok b => cases xs.mapM f <;> rfl

end Strict

open Strict (complete)

/-- The clause whose fields have these values. -/
def clauseOf (at_ : Nat) (fields : List Nat) : Except Fault Clause :=
  let field (i : Nat) : Int := fields.getD i 0
  let flags := fields.getD 0 0
  match ClauseKind.ofCode? flags with
  | none => .error (.format .body at_ ("invalid clause flags 0x" ++ hex flags : String))
  | some kind => .ok {
      kind := some kind
      tryOffset := field 1
      tryLength := field 2
      handlerOffset := field 3
      handlerLength := field 4
      classToken := if kind = .catch then Token.ofNat (fields.getD 5 0) else Token.null
      filterOffset := if kind = .filter then field 5 else 0 }

/-- A clause with every field checked. -/
def readClauseStrict (g : Region) (l : ClauseLayout) (offset : Nat) : Strict Clause := do
  let fields ← liftM (l.fields.mapM fun (o, w) => g.word w (offset + o : Nat))
  complete (clauseOf (g.base + offset) fields)

/-- The layout of the clauses behind a section header. -/
def layoutOf (kind : Nat) : ClauseLayout := if isLarge kind then largeLayout else smallLayout

/-- The clauses of a section with every field checked. -/
def sectionClausesStrict (sect : Region) (kind : Nat) : Strict (List Clause) :=
  if kind % 64 ≠ handlerSection then pure []
  else (List.range ((sect.len - 4) / (layoutOf kind).size)).mapM fun i =>
    readClauseStrict sect (layoutOf kind) (4 + i * (layoutOf kind).size)

/-! ## No word of a clause is missing -/

theorem layoutOf_inside (kind : Nat) :
    0 < (layoutOf kind).size ∧ ∀ p ∈ (layoutOf kind).fields, p.1 + p.2 ≤ (layoutOf kind).size := by
  rw [layoutOf]
  cases isLarge kind <;> decide

/-- A clause that lies inside the section has all its fields. -/
theorem readClauseStrict_eq {g : Region} {l : ClauseLayout} {offset : Nat}
    (hfields : ∀ p ∈ l.fields, p.1 + p.2 ≤ l.size) (hin : offset + l.size ≤ g.len) :
    readClauseStrict g l offset = complete (readClause g l offset) := by
  have hwords : (l.fields.mapM fun (o, w) => g.word w (offset + o : Nat))
      = .ok (l.fields.map fun (o, w) => g.wordD w (offset + o)) := by
    apply Except.mapM_eq_ok
    rw [List.forall₂_map_right_iff, List.forall₂_same]
    intro p hp
    have hp := hfields p hp
    exact Region.word_eq_wordD (by omega)
  rw [readClauseStrict, Strict.lift_ok hwords]
  rfl

/-- **No clause of a section misses a field**, since only as many are read as there is room for. -/
theorem sectionClausesStrict_eq (sect : Region) (kind : Nat) :
    sectionClausesStrict sect kind = complete (sectionClauses sect kind) := by
  rw [sectionClausesStrict, sectionClauses]
  split
  · rfl
  · obtain ⟨hpos, hfields⟩ := layoutOf_inside kind
    refine Strict.mapM_complete _ fun i hi => readClauseStrict_eq hfields ?_
    -- There is room for `i + 1` clauses, so clause `i` ends inside.
    have hcount := List.mem_range.mp hi
    have hroom := (Nat.le_div_iff_mul_le hpos).mp (Nat.succ_le_of_lt hcount)
    rw [Nat.succ_mul] at hroom
    omega

/-! ## The loop over the sections -/

/-- A section that was read has at least its header, lies inside the region at the offset that was
asked for, and has the size that it declares. -/
theorem readSection_ok {g sect : Region} {offset kind : Nat}
    (h : readSection g offset = .ok (kind, sect)) :
    g.u8 offset = .ok kind ∧ sectionSize g offset kind = .ok sect.len ∧ 4 ≤ sect.len
      ∧ g.sub offset sect.len = .ok sect := by
  unfold readSection at h
  dsimp only at h
  split at h
  · cases h
  next first hfirst =>
  split at h
  · cases h
  next size hsize =>
  split at h
  · cases h
  next hroom =>
  split at h
  · cases h
  next w hsub =>
  cases h
  obtain ⟨-, -, -, -, -, hlen⟩ := Region.sub_ok hsub
  rw [Int.toNat_natCast] at hlen
  rw [hlen]
  exact ⟨hfirst, hsize, by omega, hsub⟩

theorem le_aligned (rva offset : Nat) : offset ≤ aligned rva offset := Nat.le_add_right _ _

/-- One turn of the loop over the sections: the clauses of the next section, and the offset at which
the loop goes on if there are more. -/
def turn (g : Region) (rva offset : Nat) : Except Fault (List Clause × Option Nat) := do
  let (kind, sect) ← readSection g (aligned rva offset)
  let clauses ← sectionClauses sect kind
  return (clauses, if hasMore kind then some (aligned rva offset + sect.len) else none)

/-- A turn with every field checked. -/
def turnStrict (g : Region) (rva offset : Nat) : Strict (List Clause × Option Nat) := do
  let (kind, sect) ← complete (readSection g (aligned rva offset))
  let clauses ← sectionClausesStrict sect kind
  return (clauses, if hasMore kind then some (aligned rva offset + sect.len) else none)

theorem turnStrict_eq (g : Region) (rva offset : Nat) :
    turnStrict g rva offset = complete (turn g rva offset) := by
  rw [turnStrict, turn, ← Strict.complete_bind]
  refine bind_congr fun found => ?_
  obtain ⟨kind, sect⟩ := found
  dsimp only
  rw [sectionClausesStrict_eq, ← Strict.complete_bind]
  rfl

/-- What a turn did that came to its end. -/
theorem turn_ok {g : Region} {rva offset : Nat} {clauses : List Clause} {next : Option Nat}
    (h : turn g rva offset = .ok (clauses, next)) :
    ∃ kind sect, readSection g (aligned rva offset) = .ok (kind, sect)
      ∧ sectionClauses sect kind = .ok clauses
      ∧ next = if hasMore kind then some (aligned rva offset + sect.len) else none := by
  obtain ⟨⟨kind, sect⟩, hread, h⟩ := Except.bind_ok h
  obtain ⟨clauses', hclauses, h⟩ := Except.bind_ok h
  cases h
  exact ⟨kind, sect, hread, hclauses, rfl⟩

/-- **Every turn advances**, by the header of a section at least, and stays inside. -/
theorem turn_advances {g : Region} {rva offset next : Nat} {clauses : List Clause}
    (h : turn g rva offset = .ok (clauses, some next)) : offset + 4 ≤ next ∧ next ≤ g.len := by
  obtain ⟨kind, sect, hread, -, hnext⟩ := turn_ok h
  obtain ⟨-, -, hfour, hsub⟩ := readSection_ok hread
  obtain ⟨-, -, hin, -, -, -⟩ := Region.sub_ok hsub
  have hle := le_aligned rva offset
  split at hnext
  · cases hnext
    omega
  · cases hnext

/-- The clauses of a turn, with those that come after it. -/
def withRest (rest : Nat → Except Fault (List Clause)) :
    List Clause × Option Nat → Except Fault (List Clause)
  | (clauses, none) => .ok clauses
  | (clauses, some next) => do return clauses ++ (← rest next)

/-- The turn over a section that was written gives its clauses. -/
theorem turn_written {g : Region} {rva offset : Nat} {wide more : Bool}
    {cs : List Assemble.RawClause} (hfit : SectionFits wide cs)
    (h : g.Holds (aligned rva offset) (Assemble.clauseSection cs wide more)) :
    turn g rva offset = .ok (cs.map Assemble.RawClause.clause, if more
      then some (aligned rva offset + (Assemble.clauseSection cs wide more).length) else none) := by
  obtain ⟨sect, hread, his⟩ := readSection_written hfit h
  obtain ⟨-, -, hmore⟩ := kindByte_flags wide more
  simp only [turn, bind, Except.bind, hread, sectionClauses_written hfit his, hmore, his.len_eq]
  rfl

/-- The reader's loop makes turns as long as its bound lasts. -/
theorem readSections_succ (g : Region) (rva left offset : Nat) :
    readSections g rva (left + 1) offset
      = turn g rva offset >>= withRest (readSections g rva left) := by
  rw [readSections, turn, bind_assoc]
  refine bind_congr fun found => ?_
  obtain ⟨kind, sect⟩ := found
  rw [bind_assoc]
  refine bind_congr fun clauses => ?_
  rw [pure_bind]
  cases hasMore kind <;> rfl

/-- The loop without a bound: it turns until a section says that no other follows. -/
def sectionsStrict (g : Region) (rva offset : Nat) : Strict (List Clause) :=
  match _h : turnStrict g rva offset with
  | .error missing => ExceptT.mk (.error missing)
  | .ok (.error f) => complete (.error f)
  | .ok (.ok (clauses, none)) => complete (.ok clauses)
  | .ok (.ok (clauses, some next)) =>
    sectionsStrict g rva next >>= fun rest => complete (.ok (clauses ++ rest))
termination_by g.len - offset
decreasing_by
  rw [turnStrict_eq] at _h
  obtain ⟨hforward, hinside⟩ := turn_advances (Except.ok.inj _h)
  omega

theorem sectionsStrict_turn (g : Region) (rva offset : Nat) :
    sectionsStrict g rva offset = match turn g rva offset with
      | .error f => complete (.error f)
      | .ok (clauses, none) => complete (.ok clauses)
      | .ok (clauses, some next) =>
        sectionsStrict g rva next >>= fun rest => complete (.ok (clauses ++ rest)) := by
  rw [sectionsStrict]
  split
  next missing h =>
    rw [turnStrict_eq] at h
    cases h
  all_goals
    next h =>
      rw [turnStrict_eq] at h
      rw [Except.ok.inj h]

/-- **The bound of the loop is never reached**, by induction on it: it exceeds the number of the
bytes that are left, and a turn takes some of them. -/
theorem sectionsStrict_eq (g : Region) (rva : Nat) : ∀ (left offset : Nat), g.len < left + offset →
    sectionsStrict g rva offset = complete (readSections g rva left offset)
  | 0, offset, hleft => by
    -- Nothing is left, so no section starts here.
    have hle := le_aligned rva offset
    have hnone : g.u8 (aligned rva offset : Int) = .error .unexpectedEnd := by
      rw [Region.u8, Region.word, Region.check, if_neg (by omega), if_neg (by omega)]
      rfl
    have hturn : turn g rva offset = .error (.bounds .body (g.base + aligned rva offset : Nat)
        "missing data section") := by
      rw [turn, readSection, hnone]
      rfl
    rw [sectionsStrict_turn, hturn, readSections]
  | left + 1, offset, hleft => by
    rw [sectionsStrict_turn, readSections_succ]
    cases hturn : turn g rva offset with
    | error f => rfl
    | ok done =>
      obtain ⟨clauses, next⟩ := done
      cases next with
      | none => rfl
      | some next =>
        obtain ⟨hforward, -⟩ := turn_advances hturn
        have hrest := sectionsStrict_eq g rva left next (by omega)
        dsimp only
        rw [hrest, Strict.complete_bind]
        rfl

/-! ## Whole bodies -/

/-- A body with a fat header, with every read checked and no bound to the loop. -/
def readFatStrict (g : Region) (rva : Nat) : Strict Body := do
  match g.u16 0 with
  | .error _ => throw (.bounds .body g.base "truncated fat header")
  | .ok flags =>
    let headerSize := flags / 4096 * 4
    if headerSize < fatHeader then
      throw (.format .body g.base s!"fat header size {headerSize} is below {fatHeader}")
    if g.len < headerSize then throw (.bounds .body g.base "truncated fat header")
    let maxStack ← liftM (g.u16 2)
    let codeSize ← liftM (g.u32 4)
    let locals ← liftM (g.u32 8)
    if g.len - headerSize < codeSize then
      throw (.bounds .body g.base s!"code size {codeSize} exceeds the image")
    let code ← liftM (g.slice headerSize codeSize)
    let clauses ← if flags.testBit 3 then sectionsStrict g rva (headerSize + codeSize) else pure []
    return {
      rva, headerSize, clauses, maxStack
      fat := true
      initLocals := flags.testBit 4
      localsToken := Token.ofNat locals
      code := code.data.toList }

/-- A body with every read checked and no bound to the loop. -/
def readStrict (g : Region) (rva : Nat) : Strict Body :=
  match g.u8 0 with
  | .error _ =>
    throw (.bounds .body g.base ("empty method body at RVA 0x" ++ hexPad 8 rva : String))
  | .ok first => match first % 4 with
    | 2 => complete (readTiny g rva first)
    | 3 => readFatStrict g rva
    | form => throw (.format .body g.base ("invalid method header format 0x" ++ hex form : String))

/-- A fat header that lies in the region, with room for its code behind it. -/
structure FatHeader (g : Region) (flags : Nat) : Prop where
  first : g.u16 0 = .ok flags
  least : 12 ≤ flags / 4096 * 4
  room : flags / 4096 * 4 + g.wordD 4 4 ≤ g.len

/-- The words behind the flags of a header are there if the least of a header is. -/
theorem header_words {g : Region} (h : 12 ≤ g.len) :
    g.u16 2 = .ok (g.wordD 2 2) ∧ g.u32 4 = .ok (g.wordD 4 4) ∧ g.u32 8 = .ok (g.wordD 4 8) := by
  have hstack : 2 + 2 ≤ g.len := by omega
  have hsize : 4 + 4 ≤ g.len := by omega
  have hlocals : 8 + 4 ≤ g.len := h
  exact ⟨Region.word_eq_wordD hstack, Region.word_eq_wordD hsize, Region.word_eq_wordD hlocals⟩

/-- The body behind a fat header, with the clauses of its sections. -/
def bodyOf (g : Region) (rva flags : Nat) (clauses : List Clause) : Body where
  rva := rva
  fat := true
  headerSize := flags / 4096 * 4
  maxStack := g.wordD 2 2
  initLocals := flags.testBit 4
  localsToken := Token.ofNat (g.wordD 4 8)
  code := (g.data.extract (g.base + flags / 4096 * 4)
    (g.base + flags / 4096 * 4 + g.wordD 4 4)).data.toList
  clauses := clauses

/-- Both readings report the same fault of the header, or both go on to the sections. -/
theorem readFat_cases (g : Region) (rva : Nat) :
    (∃ f, readFat g rva = .error f ∧ readFatStrict g rva = complete (.error f))
      ∨ ∃ flags, FatHeader g flags
        ∧ readFat g rva = ((if flags.testBit 3
            then readSections g rva (g.len + 1) (flags / 4096 * 4 + g.wordD 4 4) else .ok [])
          >>= fun clauses => .ok (bodyOf g rva flags clauses))
        ∧ readFatStrict g rva = ((if flags.testBit 3
            then sectionsStrict g rva (flags / 4096 * 4 + g.wordD 4 4) else complete (.ok []))
          >>= fun clauses => complete (.ok (bodyOf g rva flags clauses))) := by
  rw [readFat, readFatStrict]
  cases hflags : g.u16 0 with
  | error missing => exact .inl ⟨_, rfl, rfl⟩
  | ok flags =>
    dsimp only
    by_cases hleast : flags / 4096 * 4 < fatHeader
    · rw [if_pos hleast, if_pos hleast]
      exact .inl ⟨_, rfl, rfl⟩
    rw [if_neg hleast, if_neg hleast]
    by_cases hheader : g.len < flags / 4096 * 4
    · rw [if_pos hheader, if_pos hheader]
      exact .inl ⟨_, rfl, rfl⟩
    rw [if_neg hheader, if_neg hheader]
    -- The whole header is there, and with it the words behind the flags.
    rw [fatHeader] at hleast
    obtain ⟨hstack, hsize, hlocals⟩ := header_words (g := g) (by omega)
    rw [Strict.lift_ok hstack, Strict.lift_ok hsize, Strict.lift_ok hlocals]
    simp only [Strict.complete_ok_bind]
    by_cases hcode : g.len - flags / 4096 * 4 < g.wordD 4 4
    · rw [if_pos hcode, if_pos hcode]
      exact .inl ⟨_, rfl, rfl⟩
    rw [if_neg hcode, if_neg hcode]
    have hroom : flags / 4096 * 4 + g.wordD 4 4 ≤ g.len := by omega
    rw [Strict.lift_ok (Region.slice_eq_extract hroom), Strict.complete_ok_bind, ← Nat.add_assoc]
    -- From here on the two readings differ in nothing but the loop.
    refine .inr ⟨flags, ⟨hflags, by omega, hroom⟩, ?_⟩
    split <;> exact ⟨rfl, rfl⟩

theorem readFatStrict_eq (g : Region) (rva : Nat) :
    readFatStrict g rva = complete (readFat g rva) := by
  rcases readFat_cases g rva with ⟨f, hread, hstrict⟩ | ⟨flags, hheader, hread, hstrict⟩
  · rw [hread, hstrict]
  · rw [hread, hstrict]
    split
    · rw [sectionsStrict_eq g rva (g.len + 1) _ (by omega), ← Strict.complete_bind]
    · rfl

/-- **The checks make no difference**: for any bytes and any address, no word that the reader takes
for granted is missing, whatever it reports in the end. -/
theorem readStrict_eq (g : Region) (rva : Nat) : readStrict g rva = complete (read g rva) := by
  rw [readStrict, read]
  cases g.u8 0 with
  | error missing => rfl
  | ok first =>
    dsimp only
    rcases first % 4 with _ | _ | _ | _ | form
    · rfl
    · rfl
    · rfl
    · exact readFatStrict_eq g rva
    · rfl

/-! ## What a body that was read consists of -/

/-- A section that the loop came by. -/
structure Visit where
  /-- Where the section starts. -/
  offset : Nat
  /-- The first byte of its header. -/
  kind : Nat
  /-- Its bytes. -/
  bytes : Region

namespace Visit

/-- The section stands behind `start` at an address that is a multiple of four; its kind and its
size are what its header says, and all of it lies in the region. -/
structure Inside (g : Region) (rva start : Nat) (v : Visit) : Prop where
  behind : start ≤ v.offset
  aligned : (rva + v.offset) % 4 = 0
  kind : g.u8 v.offset = .ok v.kind
  size : sectionSize g v.offset v.kind = .ok v.bytes.len
  header : 4 ≤ v.bytes.len
  room : v.offset + v.bytes.len ≤ g.len
  window : g.sub v.offset v.bytes.len = .ok v.bytes

theorem Inside.mono {g : Region} {rva start start' : Nat} {v : Visit} (h : v.Inside g rva start')
    (hle : start ≤ start') : v.Inside g rva start :=
  { h with behind := Nat.le_trans hle h.behind }

/-- The section has handlers, and this is the clause at one of the places there is room for. -/
def Lists (v : Visit) (c : Clause) : Prop :=
  v.kind % 64 = handlerSection ∧ ∃ at_, at_ + (layoutOf v.kind).size ≤ v.bytes.len
    ∧ readClause v.bytes (layoutOf v.kind) at_ = .ok c

end Visit

/-- The clauses come from these sections, in order, and the sections stand one behind the other. -/
structure Collected (g : Region) (rva start : Nat) (visits : List Visit) (clauses : List Clause) :
    Prop where
  inside : ∀ v ∈ visits, v.Inside g rva start
  ordered : visits.Pairwise fun v w => v.offset + v.bytes.len ≤ w.offset
  clauses : ∃ lists, List.Forall₂ (fun v cs => sectionClauses v.bytes v.kind = .ok cs) visits lists
    ∧ clauses = lists.flatten

theorem collected_nil (g : Region) (rva start : Nat) : Collected g rva start [] [] :=
  ⟨fun _ hv => (List.not_mem_nil hv).elim, .nil, [], .nil, rfl⟩

theorem Collected.cons {g : Region} {rva start next : Nat} {v : Visit} {visits : List Visit}
    {cs rest : List Clause} (hv : v.Inside g rva start)
    (hcs : sectionClauses v.bytes v.kind = .ok cs) (hnext : v.offset + v.bytes.len = next)
    (h : Collected g rva next visits rest) :
    Collected g rva start (v :: visits) (cs ++ rest) := by
  have hstart := hv.behind
  obtain ⟨lists, hlists, hrest⟩ := h.clauses
  refine ⟨fun w hw => ?_, .cons (fun w hw => ?_) h.ordered, cs :: lists, .cons hcs hlists, ?_⟩
  · rcases List.mem_cons.mp hw with rfl | hw
    · exact hv
    · exact (h.inside w hw).mono (by omega)
  · rw [hnext]
    exact (h.inside w hw).behind
  · rw [List.flatten_cons, hrest]

/-- A clause of a section was read from it. -/
theorem lists_of_sectionClauses {v : Visit} {cs : List Clause}
    (h : sectionClauses v.bytes v.kind = .ok cs) : ∀ c ∈ cs, v.Lists c := by
  intro c hc
  rw [sectionClauses] at h
  split at h
  · cases h
    exact absurd hc List.not_mem_nil
  · next hkind =>
    obtain ⟨hpos, -⟩ := layoutOf_inside v.kind
    obtain ⟨i, hi, hread⟩ := exists_mem_of_forall₂ (Except.mapM_ok h) c hc
    have hroom := (Nat.le_div_iff_mul_le hpos).mp (Nat.succ_le_of_lt (List.mem_range.mp hi))
    rw [Nat.succ_mul] at hroom
    refine ⟨not_not.mp hkind, 4 + i * (layoutOf v.kind).size, ?_, hread⟩
    omega

theorem Collected.lists {g : Region} {rva start : Nat} {visits : List Visit} {clauses : List Clause}
    (h : Collected g rva start visits clauses) : ∀ c ∈ clauses, ∃ v ∈ visits, v.Lists c := by
  obtain ⟨lists, hlists, rfl⟩ := h.clauses
  intro c hc
  obtain ⟨cs, hcs, hc⟩ := List.mem_flatten.mp hc
  obtain ⟨v, hv, hread⟩ := exists_mem_of_forall₂ hlists cs hcs
  exact ⟨v, hv, lists_of_sectionClauses hread c hc⟩

/-- **The loop collects from sections that lie inside**, one behind the other, by induction on the
turns. -/
theorem readSections_ok {g : Region} {rva : Nat} : ∀ {left start : Nat} {clauses : List Clause},
    readSections g rva left start = .ok clauses →
      ∃ visits, Collected g rva start visits clauses
  | 0, start, clauses, h => by cases h
  | left + 1, start, clauses, h => by
    rw [readSections_succ] at h
    obtain ⟨⟨cs, next⟩, hturn, h⟩ := Except.bind_ok h
    obtain ⟨kind, sect, hread, hcs, hnext⟩ := turn_ok hturn
    obtain ⟨hkind, hsize, hfour, hsub⟩ := readSection_ok hread
    have hin : aligned rva start + sect.len ≤ g.len := (Region.sub_ok hsub).2.2.1
    have hv : Visit.Inside g rva start ⟨aligned rva start, kind, sect⟩ :=
      ⟨le_aligned rva start, aligned_mod rva start, hkind, hsize, hfour, hin, hsub⟩
    cases next with
    | none =>
      cases h
      have hone := Collected.cons hv hcs rfl (collected_nil g rva _)
      rw [List.append_nil] at hone
      exact ⟨_, hone⟩
    | some next =>
      obtain ⟨rest, hrest, h⟩ := Except.bind_ok h
      cases h
      obtain ⟨visits, hvisits⟩ := readSections_ok hrest
      -- The next turn starts where this section ends.
      split at hnext
      · cases hnext
        exact ⟨_, .cons hv hcs rfl hvisits⟩
      · cases hnext

/-- What the header of a body says, with the size of its code. Every field is a word of the
region. -/
inductive Head (g : Region) (b : Body) : Nat → Prop where
  | tiny {first : Nat} : g.u8 0 = .ok first → first % 4 = 2 → b.fat = false → b.headerSize = 1 →
      Head g b (first / 4)
  | fat {first flags size locals : Nat} : g.u8 0 = .ok first → first % 4 = 3 →
      g.u16 0 = .ok flags → b.fat = true → b.headerSize = flags / 4096 * 4 → 12 ≤ b.headerSize →
      g.u16 2 = .ok b.maxStack → g.u32 4 = .ok size → g.u32 8 = .ok locals →
      b.localsToken = Token.ofNat locals → Head g b size

/-- The parts of a body: the code stands directly behind the header, the sections behind it. -/
structure Consists (g : Region) (rva : Nat) (b : Body) (size : Nat) : Prop where
  head : Head g b size
  room : b.headerSize + size ≤ g.len
  code : b.code = (g.data.data.toList.drop (g.base + b.headerSize)).take size
  clauses : ∃ visits, Collected g rva (b.headerSize + size) visits b.clauses

theorem readTiny_ok {g : Region} {rva first : Nat} {b : Body} (hfirst : g.u8 0 = .ok first)
    (hform : first % 4 = 2) (h : readTiny g rva first = .ok b) : ∃ size, Consists g rva b size := by
  rw [readTiny] at h
  split at h
  · cases h
  next code hslice =>
  cases h
  obtain ⟨hin, rfl⟩ := Region.slice_ok hslice
  exact ⟨first / 4, .tiny hfirst hform rfl rfl, hin, toList_extract _ _ _, [],
    collected_nil g rva _⟩

theorem readFat_ok {g : Region} {rva first : Nat} {b : Body} (hfirst : g.u8 0 = .ok first)
    (hform : first % 4 = 3) (h : readFat g rva = .ok b) : ∃ size, Consists g rva b size := by
  rcases readFat_cases g rva with ⟨f, hread, -⟩ | ⟨flags, hheader, hread, -⟩
  · rw [hread] at h
    cases h
  rw [hread] at h
  obtain ⟨clauses, hclauses, h⟩ := Except.bind_ok h
  cases h
  have hleast := hheader.least
  have hroom := hheader.room
  obtain ⟨hstack, hsize, hlocals⟩ := header_words (g := g) (by omega)
  refine ⟨g.wordD 4 4, ?_, hroom, toList_extract _ _ _, ?_⟩
  · exact .fat hfirst hform hheader.first rfl rfl hleast hstack hsize hlocals rfl
  split at hclauses
  · exact readSections_ok hclauses
  · cases hclauses
    exact ⟨[], collected_nil g rva _⟩

/-- **A body that is read has its parts in the region.** -/
theorem read_ok {g : Region} {rva : Nat} {b : Body} (h : read g rva = .ok b) :
    ∃ size, Consists g rva b size := by
  rw [read] at h
  split at h
  · cases h
  next first hfirst =>
  split at h
  next hform => exact readTiny_ok hfirst hform h
  next hform => exact readFat_ok hfirst hform h
  next => cases h

end Body

/-! ## The bodies of an image -/

namespace Portable.File

/-- What starts at an address ends with the file. -/
theorem regionFrom_ok {f : File} {rva : Nat} {g : Region} (h : f.regionFrom rva = .ok g) :
    g.data = f.region.data ∧ g.base + g.len = f.region.base + f.region.len := by
  obtain ⟨off, -, h⟩ := Except.bind_ok h
  split at h
  · next hsub =>
    cases h
    rw [Region.startingAt, if_neg (by omega)] at hsub
    obtain ⟨-, -, hin, hdata, hbase, hlen⟩ := Region.sub_ok hsub
    refine ⟨hdata, ?_⟩
    omega
  · cases h

theorem parse_region {data : ByteArray} {f : File} (h : File.parse data = .ok f) :
    f.region = Region.whole data := by
  obtain ⟨headers, -, h⟩ := Except.bind_ok h
  obtain ⟨runtime, -, h⟩ := Except.bind_ok h
  cases h
  rfl

end Portable.File

namespace Image

open Body (Strict)

/-- The body at an address, with every read checked and no bound to the loop. -/
def bodyAtStrict (img : Image) (rva : Nat) : Strict Body :=
  match img.file.regionFrom rva with
  | .error f => Strict.complete (.error (.context "il: failed to locate method body: " f))
  | .ok g => Body.readStrict g rva

/-- **Bodies are read in bounds.** Of a parsed image the body at any address is what a reading gives
that checks every word and whose loop has no bound; every turn of the loop advances. If there is a
body, its header lies in the image, its code is the bytes directly behind the header, as many as the
header says, and its clauses come in order from sections of handlers that lie wholly in the image,
one behind the other and behind the code. -/
theorem bodyAt_in_bounds {data : ByteArray} {img : Image} (hparse : Image.parse data = .ok img)
    (rva : Nat) :
    img.bodyAtStrict rva = Strict.complete (img.bodyAt rva)
      ∧ (∀ (g : Region) (offset next : Nat) (clauses : List Clause),
          Body.turn g rva offset = .ok (clauses, some next) → offset + 4 ≤ next ∧ next ≤ g.len)
      ∧ ∀ b, img.bodyAt rva = .ok b → ∃ (g : Region) (size : Nat) (visits : List Body.Visit),
          img.file.regionFrom rva = .ok g ∧ g.data = data ∧ g.base + g.len = data.size
            ∧ Body.Head g b size ∧ g.base + b.headerSize + size ≤ data.size
            ∧ b.code = (data.data.toList.drop (g.base + b.headerSize)).take size
            ∧ Body.Collected g rva (b.headerSize + size) visits b.clauses
            ∧ ∀ c ∈ b.clauses, ∃ v ∈ visits, v.Lists c := by
  obtain ⟨hfile, -⟩ := parse_ok hparse
  have hregion := Portable.File.parse_region hfile
  refine ⟨?_, fun g offset next clauses => Body.turn_advances, fun b h => ?_⟩
  · rw [bodyAtStrict, bodyAt]
    cases img.file.regionFrom rva with
    | error f => rfl
    | ok g => exact Body.readStrict_eq g rva
  · rw [bodyAt] at h
    split at h
    · cases h
    next g hg =>
    obtain ⟨hdata, hend⟩ := Portable.File.regionFrom_ok hg
    rw [hregion] at hdata hend
    obtain ⟨size, hparts⟩ := Body.read_ok h
    obtain ⟨visits, hvisits⟩ := hparts.clauses
    have hdata : g.data = data := hdata
    have hend : g.base + g.len = data.size := by
      rw [hend]
      exact Nat.zero_add _
    have hroom := hparts.room
    refine ⟨g, size, visits, hg, hdata, hend, hparts.head, by omega, ?_, hvisits, hvisits.lists⟩
    rw [hparts.code, hdata]

end Image

open Assemble in
/-- The loop turns twice: over a small section, and over the large one behind it. -/
theorem Image.bodyAt_in_bounds_bodySteps :
    ∃ (results : List Int) (b : Builder) (img : Image) (body : Body) (g : Region) (size : Nat)
      (visits : List Body.Visit),
      build bodySteps = .ok (results, b) ∧ Image.parse b.bytes = .ok img
        ∧ img.bodyAt 0x2054 = .ok body ∧ body.code = [0, 0x2A]
        ∧ img.bodyAtStrict 0x2054 = Body.Strict.complete (.ok body)
        ∧ (∃ clauses, Body.turn g 0x2054 14 = .ok (clauses, some 32)) ∧ 14 + 4 ≤ 32 ∧ 32 ≤ g.len
        ∧ g.base + body.headerSize + size ≤ b.bytes.size ∧ body.clauses.length = 2
        ∧ Body.Collected g 0x2054 (body.headerSize + size) visits body.clauses
        ∧ ∀ c ∈ body.clauses, ∃ v ∈ visits, v.Lists c := by
  obtain ⟨results, b, hbuild, hsize, -⟩ :=
    exists_build_of_short bodySteps (p := fun _ _ => True) (by decide +kernel)
  obtain ⟨-, hfit, -⟩ := journal_of_build hbuild
  obtain ⟨img, hparse, -, hfile⟩ := Builder.parse_rowsFit hfit hsize
  have hholdings := holdings_of_build hbuild
  have hmem : (Store.body (Body.laidFat 3 0x11000001 true [0, 0x2A] sampleSections), 0x2054)
      ∈ journal bodySteps := by decide +kernel
  obtain ⟨body, hat, -, -, -, hcode, hclauses⟩ :=
    (bodiesAgree_of_holdings hholdings hsize hfile).fat 3 0x11000001 0x2054 true [0, 0x2A]
      sampleSections hmem (by decide) (by decide) sampleSections_fit
  obtain ⟨hstrict, hadvances, hparts⟩ := bodyAt_in_bounds hparse 0x2054
  obtain ⟨g, size, visits, hg, -, -, -, hroom, -, hcollected, hlists⟩ := hparts body hat
  -- The first section stands behind header and code, aligned to 16, and takes 16 bytes.
  have hturn : ∃ clauses, Body.turn g 0x2054 14 = .ok (clauses, some 32) := by
    obtain ⟨i, hrva, -, hstored⟩ := hholdings.bodies (0x2054, _) (mem_calls hmem rfl)
    obtain ⟨g', hg', hheld⟩ := regionFrom_stored hfile (by decide) hstored
    have hrva : 0x2054 = Builder.sectionAddress + Builder.bodiesOffset + i := hrva
    rw [← hrva, hg] at hg'
    cases hg'
    have hheld : g.Holds 0 (Body.laidFat 3 0x11000001 true [0, 0x2A] sampleSections) := hheld
    have haligned : 0x2054 % 4 = 0 := by decide
    have hsections := (Body.laidFat_parts haligned hheld).2.2 (List.cons_ne_nil _ _)
    have hfirst := sampleSections_fit _ List.mem_cons_self
    exact ⟨_, Body.turn_written hfirst hsections.left⟩
  obtain ⟨clauses, hturn⟩ := hturn
  obtain ⟨hforward, hinside⟩ := hadvances g 14 32 clauses hturn
  rw [hat] at hstrict
  refine ⟨results, b, img, body, g, size, visits, hbuild, hparse, hat, hcode, hstrict,
    ⟨clauses, hturn⟩, hforward, hinside, hroom, ?_, hcollected, hlists⟩
  rw [hclauses]
  rfl

end ManagedImage
