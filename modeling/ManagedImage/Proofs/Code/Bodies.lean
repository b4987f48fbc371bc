/-
Method bodies read back from their bytes.

A body is written from its parts outwards: the fields of a clause, the clauses of a
section, the sections one behind the other, the header in front. Each layer is read back
over a region that holds its bytes, and the next one uses that alone. A section takes a
multiple of four bytes, so once the first one is aligned the others are.

`Laid` puts the general fat body together: any chain of sections, where
`Assemble.fatBody` writes at most one.
-/
import ManagedImage.Proofs.Bytes.Window
import ManagedImage.Assemble.Body
import ManagedImage.Code.Body

set_option autoImplicit false

namespace ManagedImage

open Assemble (RawClause clauseSection)

/-! ## Words -/

namespace Region

variable {g : Region} {i n : Nat}

/-- A written number that fits its width is read back. -/
theorem Holds.wordD_lt {width : Nat} (h : g.Holds i (leBytes width n))
    (hn : n < 256 ^ width) : g.wordD width i = n := by
  rw [h.wordD_leBytes, Nat.mod_eq_of_lt hn]

theorem Holds.word_lt {width : Nat} (h : g.Holds i (leBytes width n))
    (hn : n < 256 ^ width) : g.word width (i : Int) = .ok n := by
  rw [h.word_leBytes, Nat.mod_eq_of_lt hn]

/-- Of pieces of one size, the `k`-th stands `k` sizes behind the first. -/
theorem Holds.piece {α : Type} {f : α → List UInt8} {size : Nat}
    (hsize : ∀ x, (f x).length = size) :
    ∀ {xs : List α} {start k : Nat} {x : α}, g.Holds start (xs.flatMap f) → xs[k]? = some x →
      g.Holds (start + k * size) (f x)
  | y :: ys, start, k, x, h, hx => by
    rw [List.flatMap_cons] at h
    cases k with
    | zero =>
      cases hx
      rw [Nat.zero_mul, Nat.add_zero]
      exact h.left
    | succ k =>
      have hk := Holds.piece hsize h.right hx
      rw [hsize y] at hk
      rwa [Nat.succ_mul, Nat.add_comm (k * size), ← Nat.add_assoc]

end Region

/-! ## Clauses -/

namespace Assemble.RawClause

/-- The clause has a kind, and its fields fit the wide ones. -/
structure Fits (c : RawClause) : Prop where
  flags : c.flags = 0 ∨ c.flags = 1 ∨ c.flags = 2 ∨ c.flags = 4
  tryOffset : c.tryOffset < 0x100000000
  tryLength : c.tryLength < 0x100000000
  handlerOffset : c.handlerOffset < 0x100000000
  handlerLength : c.handlerLength < 0x100000000
  extra : c.extra < 0x100000000

/-- The places and lengths of the clause fit the narrow fields. -/
structure FitsSmall (c : RawClause) : Prop where
  tryOffset : c.tryOffset < 0x10000
  tryLength : c.tryLength < 0x100
  handlerOffset : c.handlerOffset < 0x10000
  handlerLength : c.handlerLength < 0x100

/-- The clause as it is read: what the last field means depends on the kind. -/
def clause (c : RawClause) : Clause where
  kind := ClauseKind.ofCode? c.flags
  tryOffset := c.tryOffset
  tryLength := c.tryLength
  handlerOffset := c.handlerOffset
  handlerLength := c.handlerLength
  classToken := if ClauseKind.ofCode? c.flags = some .catch then Token.ofNat c.extra else Token.null
  filterOffset := if ClauseKind.ofCode? c.flags = some .filter then c.extra else 0

theorem length_small (c : RawClause) : c.small.length = 12 := by
  simp only [small, List.length_append, length_leBytes]

theorem length_fat (c : RawClause) : c.fat.length = 24 := by
  simp only [fat, List.length_append, length_leBytes]

end Assemble.RawClause

namespace Body

section Clauses

variable {g : Region} {offset : Nat} {c : RawClause}

/-- What the fields of a clause are, in the order in which they are read. -/
theorem readClause_fields {l : ClauseLayout} (hc : c.Fits)
    (h : l.fields.map (fun (o, w) => g.wordD w (offset + o))
      = [c.flags, c.tryOffset, c.tryLength, c.handlerOffset, c.handlerLength, c.extra]) :
    readClause g l offset = .ok c.clause := by
  simp only [readClause, h, List.getD_cons_zero, List.getD_cons_succ, RawClause.clause]
  rcases hc.flags with hf | hf | hf | hf <;> rw [hf] <;> rfl

theorem readClause_small (hc : c.Fits) (hsmall : c.FitsSmall) (h : g.Holds offset c.small) :
    readClause g smallLayout offset = .ok c.clause := by
  have hflags : c.flags < 256 ^ 2 := by
    have hpower : 256 ^ 2 = 0x10000 := rfl
    have hkind := hc.flags
    omega
  simp only [RawClause.small, Region.holds_append, List.length_append, length_leBytes,
    and_assoc] at h
  obtain ⟨h0, h2, h4, h5, h7, h8⟩ := h
  apply readClause_fields hc
  simp only [smallLayout, List.map_cons, List.map_nil, Nat.add_zero]
  rw [h0.wordD_lt hflags, h2.wordD_lt hsmall.tryOffset, h4.wordD_lt hsmall.tryLength,
    h5.wordD_lt hsmall.handlerOffset, h7.wordD_lt hsmall.handlerLength, h8.wordD_lt hc.extra]

theorem readClause_fat (hc : c.Fits) (h : g.Holds offset c.fat) :
    readClause g largeLayout offset = .ok c.clause := by
  have hflags : c.flags < 256 ^ 4 := by
    have hpower : 256 ^ 4 = 0x100000000 := rfl
    have hkind := hc.flags
    omega
  simp only [RawClause.fat, Region.holds_append, List.length_append, length_leBytes, and_assoc] at h
  obtain ⟨h0, h4, h8, h12, h16, h20⟩ := h
  apply readClause_fields hc
  simp only [largeLayout, List.map_cons, List.map_nil, Nat.add_zero]
  rw [h0.wordD_lt hflags, h4.wordD_lt hc.tryOffset, h8.wordD_lt hc.tryLength,
    h12.wordD_lt hc.handlerOffset, h16.wordD_lt hc.handlerLength, h20.wordD_lt hc.extra]

end Clauses

/-! ## Sections -/

/-- The clauses of a section can be written in its layout, and its size in its header. -/
structure SectionFits (wide : Bool) (cs : List RawClause) : Prop where
  clauses : ∀ c ∈ cs, c.Fits
  small : wide = false → cs.length ≤ 20 ∧ ∀ c ∈ cs, c.FitsSmall
  fat : wide = true → 4 + 24 * cs.length < 0x1000000

theorem length_clauseSection (cs : List RawClause) (wide more : Bool) :
    (clauseSection cs wide more).length = 4 + (if wide then 24 else 12) * cs.length := by
  have hsmall : (cs.flatMap RawClause.small).length = 12 * cs.length := by
    rw [List.length_flatMap, List.map_congr_left fun c _ => c.length_small]
    simp [Nat.mul_comm]
  have hfat : (cs.flatMap RawClause.fat).length = 24 * cs.length := by
    rw [List.length_flatMap, List.map_congr_left fun c _ => c.length_fat]
    simp [Nat.mul_comm]
  cases wide <;>
    simp only [clauseSection, Bool.false_eq_true, if_true, if_false, List.length_append,
      length_leBytes, length_zeroBytes, hsmall, hfat]

section Sections

variable {g : Region} {offset : Nat} {cs : List RawClause} {wide more : Bool}

/-- The kind byte of a section. -/
def kindByte (wide more : Bool) : Nat :=
  0x01 + (if more then 0x80 else 0) + (if wide then 0x40 else 0)

theorem kindByte_lt (wide more : Bool) : kindByte wide more < 256 := by
  cases wide <;> cases more <;> decide

theorem kindByte_flags (wide more : Bool) : kindByte wide more % 64 = handlerSection
    ∧ isLarge (kindByte wide more) = wide ∧ hasMore (kindByte wide more) = more := by
  cases wide <;> cases more <;> decide

/-- A byte with a word of three behind it is a word of four. -/
theorem leBytes_one_three {kind size : Nat} (hkind : kind < 256) :
    leBytes 1 kind ++ leBytes 3 size = leBytes 4 (kind + 256 * size) := by
  have hlow : (kind + 256 * size) % 256 = kind % 256 := by omega
  have hhigh : (kind + 256 * size) / 256 = size := by omega
  have hfour : leBytes 4 (kind + 256 * size)
      = UInt8.ofNat ((kind + 256 * size) % 256) :: leBytes 3 ((kind + 256 * size) / 256) := rfl
  rw [hfour, hlow, hhigh]
  rfl

/-- The header of a section gives its kind and its size. -/
theorem readSection_written (hfit : SectionFits wide cs)
    (h : g.Holds offset (clauseSection cs wide more)) :
    ∃ sect : Region, readSection g offset = .ok (kindByte wide more, sect)
      ∧ sect.Is (clauseSection cs wide more) := by
  have hkind := kindByte_lt wide more
  obtain ⟨-, hlarge, -⟩ := kindByte_flags wide more
  have hlen := length_clauseSection cs wide more
  obtain ⟨sect, hsub, his⟩ := h.sub
  refine ⟨sect, ?_, his⟩
  have hu8 : g.u8 (offset : Int) = .ok (kindByte wide more) := by
    cases wide
    · exact h.left.left.left.word_lt hkind
    · exact h.left.left.word_lt hkind
  have hsize : sectionSize g offset (kindByte wide more)
      = .ok (clauseSection cs wide more).length := by
    rw [sectionSize, hlarge, hlen]
    cases wide with
    | false =>
      have hcount := (hfit.small rfl).1
      have hpower : 256 ^ 1 = 256 := rfl
      have hword := h.left.left.right.word_lt (n := 4 + 12 * cs.length) (by omega)
      rw [length_leBytes] at hword
      exact hword
    | true =>
      have hcount := hfit.fat rfl
      have hpower : 256 ^ 4 = 0x100000000 := rfl
      have hheader : clauseSection cs true more
          = leBytes 4 (kindByte true more + 256 * (4 + 24 * cs.length))
            ++ cs.flatMap RawClause.fat := by
        rw [← leBytes_one_three hkind]
        rfl
      rw [hheader] at h
      have hword := h.left.word_lt (by omega)
      -- The size is the three upper bytes of a word whose lowest is the kind.
      have hquotient : (kindByte true more + 256 * (4 + 24 * cs.length)) / 256
          = 4 + 24 * cs.length := by omega
      show (· / 256) <$> g.word 4 (offset : Int) = _
      rw [hword, if_pos rfl]
      exact congrArg Except.ok hquotient
  have hfour : ¬ (clauseSection cs wide more).length < 4 := by omega
  rw [readSection, hu8]
  simp only [hsize, if_neg hfour, hsub]

/-- The clauses of a section are read one by one. -/
theorem sectionClauses_written {sect : Region} (hfit : SectionFits wide cs)
    (h : sect.Is (clauseSection cs wide more)) :
    sectionClauses sect (kindByte wide more) = .ok (cs.map RawClause.clause) := by
  obtain ⟨hkind, hlarge, -⟩ := kindByte_flags wide more
  have hlen := length_clauseSection cs wide more
  have hitem : ∀ i (hi : i < cs.length), readClause sect
      (if wide then largeLayout else smallLayout)
        (4 + i * (if wide then largeLayout else smallLayout).size) = .ok cs[i].clause := by
    intro i hi
    have hc := hfit.clauses cs[i] (List.getElem_mem hi)
    cases wide with
    | false =>
      have hpiece := h.holds.right.piece RawClause.length_small (List.getElem?_eq_getElem hi)
      simp only [List.length_append, length_leBytes, length_zeroBytes, Nat.zero_add] at hpiece
      exact readClause_small hc ((hfit.small rfl).2 _ (List.getElem_mem hi)) hpiece
    | true =>
      have hpiece := h.holds.right.piece RawClause.length_fat (List.getElem?_eq_getElem hi)
      simp only [List.length_append, length_leBytes, Nat.zero_add] at hpiece
      exact readClause_fat hc hpiece
  have hcount : (sect.len - 4) / (if wide then largeLayout else smallLayout).size = cs.length := by
    rw [h.len_eq, hlen, Nat.add_sub_cancel_left]
    cases wide with
    | false => exact Nat.mul_div_cancel_left _ (by decide)
    | true => exact Nat.mul_div_cancel_left _ (by decide)
  have hgo : ¬ kindByte wide more % 64 ≠ handlerSection := fun hne => hne hkind
  rw [sectionClauses, if_neg hgo, hlarge]
  simp only [hcount]
  -- As many clauses are read as there are, each from its own place.
  apply Except.mapM_eq_ok
  refine List.forall₂_iff_get.mpr ⟨by rw [List.length_range, List.length_map], ?_⟩
  intro i hi hi'
  rw [List.length_range] at hi
  simp only [List.get_eq_getElem, List.getElem_range, List.getElem_map]
  exact hitem i hi

end Sections

/-! ## Chains of sections -/

/-- The sections one behind the other; every one but the last says that more follow. -/
def sectionsBytes : List (Bool × List RawClause) → List UInt8
  | [] => []
  | (wide, cs) :: rest => clauseSection cs wide (!rest.isEmpty) ++ sectionsBytes rest

theorem length_le_sectionsBytes : ∀ sections : List (Bool × List RawClause),
    sections.length ≤ (sectionsBytes sections).length
  | [] => Nat.le_refl 0
  | (wide, cs) :: rest => by
    have hlen := length_clauseSection cs wide (!rest.isEmpty)
    have hrest := length_le_sectionsBytes rest
    rw [sectionsBytes, List.length_append, List.length_cons]
    omega

/-- A place that is aligned already is its own next one. -/
theorem aligned_eq_self {rva offset : Nat} (h : (rva + offset) % 4 = 0) :
    aligned rva offset = offset := by
  rw [aligned, h]
  rfl

theorem aligned_mod (rva offset : Nat) : (rva + aligned rva offset) % 4 = 0 := by
  rw [aligned]
  omega

/-- **The sections are read one behind the other**, by induction on the chain. Each takes a multiple
of four bytes, so the next one needs no padding. -/
theorem readSections_written {g : Region} {rva : Nat} :
    ∀ (sections : List (Bool × List RawClause)) (left offset : Nat), sections ≠ [] →
      sections.length ≤ left → (∀ p ∈ sections, SectionFits p.1 p.2) →
        g.Holds (aligned rva offset) (sectionsBytes sections) →
          readSections g rva left offset
            = .ok ((sections.flatMap (·.2)).map RawClause.clause)
  | [], _, _, hne, _, _, _ => absurd rfl hne
  | (wide, cs) :: rest, 0, _, _, hleft, _, _ => absurd hleft (Nat.not_succ_le_zero _)
  | (wide, cs) :: rest, left + 1, offset, _, hleft, hfits, h => by
    have hfit := hfits (wide, cs) List.mem_cons_self
    obtain ⟨-, -, hmore⟩ := kindByte_flags wide (!rest.isEmpty)
    rw [sectionsBytes] at h
    obtain ⟨sect, hread, his⟩ := readSection_written hfit h.left
    have hclauses := sectionClauses_written hfit his
    rw [List.flatMap_cons, List.map_append]
    simp only [readSections, bind, Except.bind, hread, hclauses, hmore]
    cases hrest : rest with
    | nil => simp [pure, Except.pure]
    | cons p ps =>
      have hlen := length_clauseSection cs wide (!rest.isEmpty)
      have hstart := aligned_mod rva offset
      have hnext : aligned rva (aligned rva offset + sect.len) = aligned rva offset + sect.len := by
        apply aligned_eq_self
        rw [his.len_eq, hlen]
        cases wide <;> simp only [if_true, Bool.false_eq_true, if_false] <;> omega
      have htail := readSections_written rest left (aligned rva offset + sect.len)
        (by rw [hrest]; exact List.cons_ne_nil _ _) (Nat.le_of_succ_le_succ hleft)
        (fun q hq => hfits q (List.mem_cons_of_mem _ hq))
        (by rw [hnext, his.len_eq]; exact h.right)
      rw [hrest] at htail
      simp only [List.isEmpty_cons, Bool.not_false, if_true, htail]
      rfl

/-! ## Whole bodies -/

/-- A fat body with any chain of sections: header and code, and behind zeros up to a multiple of
four the sections, if there are any. -/
def laidFat (maxStack locals : Nat) (initLocals : Bool) (code : List UInt8)
    (sections : List (Bool × List RawClause)) : List UInt8 :=
  let body := Assemble.fatHeader maxStack locals initLocals (!sections.isEmpty) code.length ++ code
  if sections.isEmpty then body else padTo 4 body ++ sectionsBytes sections

/-- What the assembler writes is the case of one section at most. -/
theorem fatBody_eq_laidFat (maxStack locals : Nat) (initLocals : Bool) (code : List UInt8)
    (clauses : List RawClause) (wide : Bool) :
    Assemble.fatBody maxStack locals initLocals code clauses wide
      = laidFat maxStack locals initLocals code
          (if clauses.isEmpty then [] else [(wide, clauses)]) := by
  cases clauses with
  | nil => rfl
  | cons c cs =>
    simp only [Assemble.fatBody, laidFat, sectionsBytes, List.isEmpty_cons, List.isEmpty_nil,
      Bool.false_eq_true, if_false, Bool.not_false, Bool.not_true, List.append_nil]

section Whole

variable {g : Region} {rva maxStack locals : Nat} {initLocals : Bool} {code : List UInt8}
  {sections : List (Bool × List RawClause)}

/-- The flags of a fat header. -/
def fatFlags (initLocals more : Bool) : Nat :=
  0x3003 + (if initLocals then 0x10 else 0) + (if more then 0x08 else 0)

theorem fatFlags_spec (initLocals more : Bool) :
    fatFlags initLocals more < 0x10000 ∧ fatFlags initLocals more % 256 % 4 = 3
      ∧ fatFlags initLocals more / 4096 * 4 = fatHeader
      ∧ (fatFlags initLocals more).testBit 4 = initLocals
      ∧ (fatFlags initLocals more).testBit 3 = more := by
  cases initLocals <;> cases more <;> decide

theorem length_fatHeader (more : Bool) (size : Nat) :
    (Assemble.fatHeader maxStack locals initLocals more size).length = 12 := by
  simp only [Assemble.fatHeader, List.length_append, length_leBytes]

/-- The parts of a fat body where the reader looks for them. At an aligned address the padding of
the body is the alignment of its end. -/
theorem laidFat_parts (hrva : rva % 4 = 0)
    (h : g.Holds 0 (laidFat maxStack locals initLocals code sections)) :
    g.Holds 0 (Assemble.fatHeader maxStack locals initLocals (!sections.isEmpty) code.length)
      ∧ g.Holds fatHeader code
      ∧ (sections ≠ [] →
          g.Holds (aligned rva (fatHeader + code.length)) (sectionsBytes sections)) := by
  have hlen : ∀ more, (Assemble.fatHeader maxStack locals initLocals more code.length).length
      = fatHeader := fun more => length_fatHeader more code.length
  rw [laidFat] at h
  by_cases hempty : sections.isEmpty = true
  · rw [if_pos hempty] at h
    have hcode := h.right
    rw [hlen, Nat.zero_add] at hcode
    exact ⟨h.left, hcode, fun hne => absurd (List.isEmpty_iff.mp hempty) hne⟩
  · rw [if_neg hempty] at h
    have hcode := h.left.left.right
    have hchain := h.right
    rw [hlen, Nat.zero_add] at hcode
    rw [length_padTo, List.length_append, hlen, Nat.zero_add] at hchain
    refine ⟨h.left.left.left, hcode, fun _ => ?_⟩
    have hplace : aligned rva (fatHeader + code.length)
        = fatHeader + code.length + (4 - (fatHeader + code.length) % 4) % 4 := by
      rw [aligned]
      omega
    rwa [hplace]

/-- The sections of a fat body are read if its flags announce them. -/
theorem sections_laid (hfits : ∀ p ∈ sections, SectionFits p.1 p.2) {stop : Nat}
    (h : sections ≠ [] → g.Holds (aligned rva stop) (sectionsBytes sections)) :
    (if (!sections.isEmpty) = true then readSections g rva (g.len + 1) stop else pure [])
      = .ok ((sections.flatMap (·.2)).map RawClause.clause) := by
  cases hsections : sections with
  | nil => rfl
  | cons p ps =>
    have hne : sections ≠ [] := by
      rw [hsections]
      exact List.cons_ne_nil _ _
    have hchain := h hne
    have hbound : sections.length ≤ g.len + 1 := by
      have hlen := length_le_sectionsBytes sections
      have hin := hchain.fits
      omega
    rw [← hsections, if_pos (by rw [hsections]; rfl)]
    exact readSections_written sections _ _ hne hbound hfits hchain

/-- **A fat body is read back.** -/
theorem read_laidFat (hrva : rva % 4 = 0) (hstack : maxStack < 0x10000)
    (hlocals : locals < 0x100000000) (hcode : code.length < 0x100000000)
    (hfits : ∀ p ∈ sections, SectionFits p.1 p.2)
    (h : g.Holds 0 (laidFat maxStack locals initLocals code sections)) :
    read g rva = .ok {
      rva, initLocals, maxStack, code
      fat := true
      headerSize := 12
      localsToken := Token.ofNat locals
      clauses := (sections.flatMap (·.2)).map RawClause.clause } := by
  obtain ⟨hflags, hform, hheader, hinit, hmore⟩ := fatFlags_spec initLocals (!sections.isEmpty)
  obtain ⟨hwords, hcodeHeld, hchain⟩ := laidFat_parts hrva h
  rw [Assemble.fatHeader, ← fatFlags] at hwords
  simp only [Region.holds_append, length_leBytes, List.length_append, and_assoc, Nat.zero_add,
    Nat.reduceAdd] at hwords
  obtain ⟨hw0, hw2, hw4, hw8⟩ := hwords
  set flags := fatFlags initLocals (!sections.isEmpty)
  have hu16 : g.u16 0 = .ok flags := hw0.word_lt hflags
  have hu8 : g.u8 0 = .ok (flags % 256) := by
    have hsplit : leBytes 2 flags = leBytes 1 flags ++ leBytes 1 (flags / 256) := rfl
    rw [hsplit] at hw0
    exact hw0.left.word_leBytes
  have hcut : (g.data.extract (g.base + fatHeader) (g.base + (fatHeader + code.length))).data.toList
      = code := by
    rw [← Nat.add_assoc, hcodeHeld.extract, List.toList_data_toByteArray]
  have hin := hcodeHeld.fits
  have hroom : ¬ g.len < fatHeader := by omega
  have hcodeRoom : ¬ g.len - fatHeader < code.length := by omega
  have hclauses := sections_laid hfits hchain
  simp only [read, hu8, hform, readFat, hu16, hheader, Nat.lt_irrefl, if_false, hroom,
    hw4.wordD_lt hcode, hcodeRoom, hinit, hmore, bind, Except.bind, pure, Except.pure, hcut,
    hw2.wordD_lt hstack, hw8.wordD_lt hlocals] at hclauses ⊢
  by_cases hsome : (!sections.isEmpty) = true
  · rw [if_pos hsome] at hclauses ⊢
    rw [hclauses]
    rfl
  · rw [if_neg hsome] at hclauses ⊢
    rw [← Except.ok.inj hclauses]
    rfl

/-- **A tiny body is read back.** -/
theorem read_tiny {x : List UInt8} (hx : Assemble.tinyBody code = .ok x) (h : g.Holds 0 x) :
    read g rva = .ok {
      rva, code
      fat := false
      headerSize := 1
      maxStack := 8
      initLocals := false
      localsToken := Token.null
      clauses := [] } := by
  rw [Assemble.tinyBody] at hx
  split at hx
  · cases hx
  next hshort =>
  cases hx
  -- The one byte of the header has the form in its low bits and the length above them.
  have hbyte : leBytes 1 (code.length * 4 + 2) = [UInt8.ofNat (code.length * 4 + 2)] := by
    rw [leBytes, leBytes, Nat.mod_eq_of_lt (by omega)]
  have hsplit : UInt8.ofNat (code.length * 4 + 2) :: code
      = leBytes 1 (code.length * 4 + 2) ++ code := by rw [hbyte]; rfl
  rw [hsplit] at h
  have hpower : 256 ^ 1 = 256 := rfl
  have hu8 : g.u8 0 = .ok (code.length * 4 + 2) := h.left.word_lt (by omega)
  have hslice : g.slice 1 (code.length : Int) = .ok code.toByteArray := h.right.slice
  have hform : (code.length * 4 + 2) % 4 = 2 := by omega
  have hlength : (code.length * 4 + 2) / 4 = code.length := by omega
  simp only [read, hu8, hform, readTiny, hlength, hslice, List.toList_data_toByteArray]
  rfl

end Whole

end Body

end ManagedImage
