/-
Writing instructions and walking over them.

`Instruction.encode` is the inverse of decoding: the operation's number, the operand
of its kind, and the entries of a jump table, distances counted from the end of the
instruction. An operation and its operand fix how many bytes that is, so a list of
them has one placement (`Instruction.place`), and the walk over the written bytes
shows exactly the placed instructions. In the other direction every walk that ends
without a fault has gone over the encoding of some placed list.

A four-byte floating-point operand is shown widened (`Operand.shown`), so that is the one
kind for which what is written and what is shown differ.
-/
import ManagedImage.Proofs.Code.Walk
import ManagedImage.Proofs.Bytes.Signs
import Mathlib.Data.List.Nodup

set_option autoImplicit false

namespace ManagedImage

open Compressed (fitsSigned)

/-! ## Numbers of operations -/

namespace Opcode

theorem getElem?_all (op : Opcode) : all[op.ctorIdx]? = some op := by cases op <;> rfl

theorem increasing_code_all : (all.map code).IsChain (· < ·) := by decide +kernel

theorem code_of_ofCode? {n : Nat} {op : Opcode} (h : ofCode? n = some op) : op.code = n :=
  of_decide_eq_true (List.find?_some (p := fun op : Opcode => decide (op.code = n)) h)

@[simp] theorem ofCode?_code (op : Opcode) : ofCode? op.code = some op := by
  have hmem : ∀ op : Opcode, op ∈ all := fun op => List.mem_of_getElem? op.getElem?_all
  have hnodup : (all.map code).Nodup :=
    (List.isChain_iff_pairwise.mp increasing_code_all).imp Nat.ne_of_lt
  cases hfind : ofCode? op.code with
  | none => exact absurd (List.find?_eq_none.mp hfind op (hmem op)) (by simp)
  | some found =>
    rw [List.inj_on_of_nodup_map hnodup (hmem found) (hmem op) (code_of_ofCode? hfind)]

theorem code_oneByte (op : Opcode) (h : op.size = 1) : op.code < 256 ∧ op.code ≠ leadByte := by
  revert h
  cases op <;> decide

theorem size_cases (op : Opcode) :
    (op.size = 1 ∧ op.code / 256 ≠ leadByte) ∨ (op.size = 2 ∧ op.code / 256 = leadByte) := by
  rw [size, codeSize]
  by_cases h : op.code / 256 = leadByte
  · exact Or.inr ⟨if_pos h, h⟩
  · exact Or.inl ⟨if_neg h, h⟩

/-- The bytes of an operation's number. -/
def bytes (op : Opcode) : List UInt8 :=
  if op.size = 2 then [UInt8.ofNat leadByte, UInt8.ofNat op.code] else [UInt8.ofNat op.code]

@[simp] theorem length_bytes (op : Opcode) : op.bytes.length = op.size := by
  rw [bytes]
  rcases op.size_cases with ⟨h, -⟩ | ⟨h, -⟩
  · rw [if_neg (by omega), h]
    rfl
  · rw [if_pos h, h]
    rfl

end Opcode

/-! ## Operands -/

namespace Operand

/-- Whether an instruction of the kind that ends at `next` can be written with the operand. A
four-byte floating-point number is given by its four-byte pattern. -/
def fits (next : Nat) : OperandKind → Operand → Bool
  | .none, .none | .phi, .none => true
  | .shortTarget, .target t => fitsSigned 7 (t - next)
  | .target, .target t => fitsSigned 31 (t - next)
  | .shortInt, .int v => fitsSigned 7 v
  | .int, .int v => fitsSigned 31 v
  | .long, .int v => fitsSigned 63 v
  | .shortVar, .int v => 0 ≤ v && v < 0x100
  | .var, .int v => 0 ≤ v && v < 0x10000
  | .single, .float bits => bits < 0x100000000
  | .double, .float bits => bits < 0x10000000000000000
  | .switch, .targets ts => ts.length < 0x100000000 && ts.all fun t => fitsSigned 31 (t - next)
  | kind, .token _ => kind.isToken
  | _, _ => false

/-- The number an operand is written as; of a jump table, its count. -/
def word (next : Nat) : Operand → Nat
  | .none => 0
  | .int v => twosComplement v
  | .float bits => bits
  | .token t => t.toNat
  | .target t => twosComplement (t - next)
  | .targets ts => ts.length

/-- The bytes of the entries of a jump table. -/
def entries (next : Nat) : Operand → List UInt8
  | .targets ts => ts.flatMap fun t => leBytes 4 (twosComplement (t - next))
  | _ => []

/-- How many bytes the entries of a jump table take. -/
def tableSize : Operand → Nat
  | .targets ts => 4 * ts.length
  | _ => 0

/-- The operand as a decoded instruction shows it. -/
def shown : OperandKind → Operand → Operand
  | .single, .float bits => .float (widen bits)
  | _, x => x

/-- The operand that was written as a word: the one that is shown, but for a four-byte
floating-point number. -/
def written (kind : OperandKind) (next : Nat) (n : Nat) : Operand :=
  if kind = .single then .float n else ofWord kind next n

theorem shown_of_ne {kind : OperandKind} (h : kind ≠ .single) (x : Operand) : x.shown kind = x := by
  unfold shown
  split
  · exact absurd rfl h
  · rfl

theorem shown_written (kind : OperandKind) (next n : Nat) :
    (written kind next n).shown kind = ofWord kind next n := by
  by_cases h : kind = .single
  · rw [written, if_pos h, h]
    rfl
  · rw [written, if_neg h, shown_of_ne h]

theorem tableSize_shown (kind : OperandKind) (x : Operand) :
    (x.shown kind).tableSize = x.tableSize := by
  unfold shown
  split <;> rfl

@[simp] theorem length_entries (next : Nat) (x : Operand) :
    (x.entries next).length = x.tableSize := by
  cases x with
  | targets ts => simp [entries, tableSize, Nat.mul_comm]
  | _ => rfl

section Words

variable {next n : Nat} {kind : OperandKind} {x : Operand}

theorem tableSize_of_fits (hkind : kind ≠ .switch) (h : x.fits next kind = true) :
    x.tableSize = 0 := by
  cases x with
  | targets ts => cases kind <;> first | exact absurd rfl hkind | cases h
  | _ => rfl

/-- A fitting operand is the one its word stands for. -/
theorem ofWord_word (hkind : kind ≠ .switch) (h : x.fits next kind = true) :
    ofWord kind next (x.word next % 256 ^ kind.size) = x.shown kind := by
  have hsigned : ∀ bits v, 0 < bits → bits ≤ 64 → fitsSigned (bits - 1) v = true →
      signedWord bits (twosComplement v % 2 ^ bits) = v := fun _ _ => signedWord_twosComplement
  have hdistance : ∀ bits t, 0 < bits → bits ≤ 64 → fitsSigned (bits - 1) (t - next) = true →
      (next : Int) + signedWord bits (twosComplement (t - next) % 2 ^ bits) = t := by
    intro bits t hpos hbits hfits
    rw [hsigned bits (t - next) hpos hbits hfits]
    omega
  have hunsigned : ∀ (bound : Nat) (v : Int), bound ≤ 0x10000000000000000 →
      (decide (0 ≤ v) && decide (v < bound)) = true →
        ((twosComplement v % bound : Nat) : Int) = v := by
    intro bound v hbound hfits
    rw [Bool.and_eq_true, decide_eq_true_eq, decide_eq_true_eq] at hfits
    obtain ⟨hlo, hhi⟩ := hfits
    have hsame : (twosComplement v : Int) = v := by
      rw [twosComplement]
      omega
    rw [Nat.mod_eq_of_lt (by omega), hsame]
  have htoken : ∀ t : Token, Token.ofNat (t.toNat % 0x100000000) = t := by
    intro t
    have ht : t.toNat < 0x100000000 := UInt32.toNat_lt t.value
    rw [Nat.mod_eq_of_lt ht]
    exact congrArg Token.mk UInt32.ofNat_toNat
  cases kind <;> cases x <;> simp only [fits, Bool.false_eq_true, OperandKind.isToken] at h
  case none.none | phi.none => rfl
  case shortTarget.target t =>
    exact congrArg Operand.target (hdistance 8 t (by decide) (by decide) h)
  case target.target t => exact congrArg Operand.target (hdistance 32 t (by decide) (by decide) h)
  case shortInt.int v => exact congrArg Operand.int (hsigned 8 v (by decide) (by decide) h)
  case int.int v => exact congrArg Operand.int (hsigned 32 v (by decide) (by decide) h)
  case long.int v => exact congrArg Operand.int (hsigned 64 v (by decide) (by decide) h)
  case shortVar.int v => exact congrArg Operand.int (hunsigned 0x100 v (by decide) h)
  case var.int v => exact congrArg Operand.int (hunsigned 0x10000 v (by decide) h)
  case single.float b =>
    exact congrArg (fun n => Operand.float (widen n)) (Nat.mod_eq_of_lt (of_decide_eq_true h))
  case double.float b => exact congrArg Operand.float (Nat.mod_eq_of_lt (of_decide_eq_true h))
  case switch.targets ts => exact absurd rfl hkind
  all_goals exact congrArg Operand.token (htoken _)

/-- Every word of the right width is the word of a fitting operand. -/
theorem fits_written (hkind : kind ≠ .switch) (hn : n < 256 ^ kind.size) :
    (written kind next n).fits next kind = true
      ∧ (written kind next n).word next % 256 ^ kind.size = n := by
  have hsigned : ∀ bits, 0 < bits → bits ≤ 64 → n < 2 ^ bits →
      fitsSigned (bits - 1) (signedWord bits n) = true
        ∧ twosComplement (signedWord bits n) % 2 ^ bits = n :=
    fun _ hpos hbits hlt => ⟨fitsSigned_signedWord hpos hlt, twosComplement_signedWord hbits hlt⟩
  -- A distance is added to the end of the instruction when it is read, and taken off again.
  have hdistance : ∀ bits, 0 < bits → bits ≤ 64 → n < 2 ^ bits →
      fitsSigned (bits - 1) (next + signedWord bits n - next) = true
        ∧ twosComplement (next + signedWord bits n - next) % 2 ^ bits = n := by
    intro bits
    rw [show (next : Int) + signedWord bits n - next = signedWord bits n by omega]
    exact hsigned bits
  have hunsigned : ∀ bound, bound ≤ 0x10000000000000000 → n < bound →
      (decide (0 ≤ (n : Int)) && decide ((n : Int) < bound)) = true
        ∧ twosComplement n % bound = n := by
    intro bound hbound hlt
    have hsame : twosComplement n = n := by
      rw [twosComplement]
      omega
    rw [Bool.and_eq_true, decide_eq_true_eq, decide_eq_true_eq, hsame]
    exact ⟨⟨by omega, by omega⟩, Nat.mod_eq_of_lt hlt⟩
  cases kind
  case switch => exact absurd rfl hkind
  case none | phi => exact ⟨rfl, (Nat.lt_one_iff.mp hn).symm⟩
  case shortTarget => exact hdistance 8 (by decide) (by decide) hn
  case target => exact hdistance 32 (by decide) (by decide) hn
  case shortInt => exact hsigned 8 (by decide) (by decide) hn
  case int => exact hsigned 32 (by decide) (by decide) hn
  case long => exact hsigned 64 (by decide) (by decide) hn
  case shortVar => exact hunsigned 0x100 (by decide) hn
  case var => exact hunsigned 0x10000 (by decide) hn
  case single => exact ⟨decide_eq_true hn, Nat.mod_eq_of_lt hn⟩
  case double => exact ⟨decide_eq_true hn, Nat.mod_eq_of_lt hn⟩
  all_goals
    refine ⟨rfl, ?_⟩
    show (Token.ofNat n).toNat % 0x100000000 = n
    rw [Token.toNat_ofNat, Nat.mod_mod]
    exact Nat.mod_eq_of_lt hn

end Words

section Tables

variable {next : Nat}

theorem fits_targets {kind : OperandKind} (hkind : kind = .switch) {ts : List Int} :
    (Operand.targets ts).fits next kind = true
      ↔ ts.length < 0x100000000 ∧ ∀ t ∈ ts, fitsSigned 31 (t - next) = true := by
  rw [hkind]
  simp only [fits, Bool.and_eq_true, decide_eq_true_eq, List.all_eq_true]

theorem table_entries (rest : List UInt8) : ∀ ts : List Int,
    (∀ t ∈ ts, fitsSigned 31 (t - next) = true) →
      table next ts.length ((Operand.targets ts).entries next ++ rest) = ts
  | [], _ => rfl
  | t :: ts, h => by
    have hword : signedWord 32 (leNat (leBytes 4 (twosComplement (t - next)))) = t - next := by
      rw [leNat_leBytes]
      exact signedWord_twosComplement (by decide) (by decide) (h t List.mem_cons_self)
    have ih := table_entries rest ts fun u hu => h u (List.mem_cons_of_mem t hu)
    simp only [entries, List.flatMap_cons, List.append_assoc, List.length_cons, table,
      List.take_left' (length_leBytes 4 _), List.drop_left' (length_leBytes 4 _)] at ih ⊢
    rw [hword, ih]
    congr 1
    omega

theorem length_table : ∀ (n : Nat) (bs : List UInt8), (table next n bs).length = n
  | 0, _ => rfl
  | n + 1, bs => by rw [table, List.length_cons, length_table n]

theorem fits_table : ∀ (n : Nat) (bs : List UInt8),
    ∀ t ∈ table next n bs, fitsSigned 31 (t - next) = true
  | 0, _, t, ht => absurd ht (List.not_mem_nil)
  | n + 1, bs, t, ht => by
    rcases List.mem_cons.mp ht with rfl | htail
    · rw [show (next : Int) + signedWord 32 (leNat (bs.take 4)) - next
        = signedWord 32 (leNat (bs.take 4)) by omega]
      exact fitsSigned_signedWord (by decide) (leNat_take_lt bs)
    · exact fits_table n (bs.drop 4) t htail

/-- The entries of a table that was read are the bytes it was read from. -/
theorem entries_table : ∀ (n : Nat) (bs : List UInt8), 4 * n ≤ bs.length →
    (Operand.targets (table next n bs)).entries next = bs.take (4 * n)
  | 0, bs, _ => by rw [Nat.mul_zero, List.take_zero]; rfl
  | n + 1, bs, h => by
    have hfour : (bs.take 4).length = 4 := by rw [List.length_take]; omega
    -- The first entry is written as its four bytes.
    have hfirst : leBytes 4 (twosComplement (signedWord 32 (leNat (bs.take 4)))) = bs.take 4 := by
      rw [← leBytes_mod, show 256 ^ 4 = 2 ^ 32 from rfl,
        twosComplement_signedWord (by decide) (leNat_take_lt bs)]
      have hbytes := leBytes_leNat (bs.take 4)
      rwa [hfour] at hbytes
    have hrest := entries_table n (bs.drop 4) (by rw [List.length_drop]; omega)
    simp only [entries, table, List.flatMap_cons] at hrest ⊢
    rw [show (next : Int) + signedWord 32 (leNat (bs.take 4)) - next
      = signedWord 32 (leNat (bs.take 4)) by omega, hfirst, hrest,
      show 4 * (n + 1) = 4 + 4 * n by omega, List.take_add]

end Tables

end Operand

/-! ## Instructions -/

namespace Instruction

/-- Whether the instruction can be written with its operand. -/
def fits (i : Instruction) : Bool := i.operand.fits i.next i.op.operand

/-- The size that an operation and its operand make. -/
def span (op : Opcode) (x : Operand) : Nat := op.size + op.operand.size + x.tableSize

/-- The bytes of an instruction. -/
def encode (i : Instruction) : List UInt8 :=
  i.op.bytes ++ (leBytes i.op.operand.size (i.operand.word i.next) ++ i.operand.entries i.next)

/-- The instruction as decoding shows it. -/
def shown (i : Instruction) : Instruction := { i with operand := i.operand.shown i.op.operand }

theorem length_encode (i : Instruction) : i.encode.length = span i.op i.operand := by
  simp only [encode, span, List.length_append, Opcode.length_bytes, length_leBytes,
    Operand.length_entries, Nat.add_assoc]

theorem hasAtLeast_iff {α : Type} {n : Nat} {xs : List α} :
    hasAtLeast n xs = true ↔ n ≤ xs.length := by
  rw [hasAtLeast, decide_eq_true_eq, List.length_take]
  omega

section Decoding

variable {offset : Nat} {op : Opcode} {rest : List UInt8}

/-- Reading the operand that was written gives the instruction. -/
theorem readOperand_written {x : Operand}
    (h : x.fits (offset + span op x) op.operand = true) :
    readOperand offset op (leBytes op.operand.size (x.word (offset + span op x))
        ++ (x.entries (offset + span op x) ++ rest))
      = .ok ⟨offset, op, span op x, x.shown op.operand⟩ := by
  set next := offset + span op x with hnext
  have hlen : (leBytes op.operand.size (x.word next)).length = op.operand.size :=
    length_leBytes _ _
  have henough : hasAtLeast op.operand.size
      (leBytes op.operand.size (x.word next) ++ (x.entries next ++ rest)) = true := by
    rw [hasAtLeast_iff, List.length_append, hlen]
    omega
  simp only [readOperand, henough, Bool.not_true, Bool.false_eq_true, if_false,
    List.take_left' hlen, List.drop_left' hlen, leNat_leBytes]
  by_cases hkind : op.operand = .switch
  · rw [if_pos hkind]
    cases x with
    | targets ts =>
      rw [Operand.fits_targets hkind] at h
      have hcount : ts.length % 256 ^ op.operand.size = ts.length := by
        rw [hkind]
        exact Nat.mod_eq_of_lt h.1
      have hentries : hasAtLeast (4 * ts.length) ((Operand.targets ts).entries next ++ rest)
          = true := by
        rw [hasAtLeast_iff, List.length_append, Operand.length_entries, Operand.tableSize]
        omega
      have hsize : op.size + op.operand.size + 4 * ts.length = span op (.targets ts) := rfl
      rw [Operand.word, hcount, hentries, hsize, ← hnext, Operand.table_entries rest ts h.2, hkind]
      rfl
    | _ =>
      rw [hkind] at h
      cases h
  · rw [if_neg hkind]
    have htable := Operand.tableSize_of_fits hkind h
    have hsize : op.size + op.operand.size = span op x := by
      rw [span, htable, Nat.add_zero]
    rw [hsize, ← hnext, Operand.ofWord_word hkind h]

/-- The operand's word is bounded by its width, and written as its bytes. -/
theorem word_taken (hle : op.operand.size ≤ rest.length) :
    leNat (rest.take op.operand.size) < 256 ^ op.operand.size
      ∧ leBytes op.operand.size (leNat (rest.take op.operand.size))
        = rest.take op.operand.size := by
  have hlen : (rest.take op.operand.size).length = op.operand.size := by
    rw [List.length_take]
    omega
  have hword := leNat_lt (rest.take op.operand.size)
  have hbytes := leBytes_leNat (rest.take op.operand.size)
  rw [hlen] at hword hbytes
  exact ⟨hword, hbytes⟩

/-- The bytes of a word are what some fitting operand is written as. -/
theorem written_word (hkind : op.operand ≠ .switch) (hle : op.operand.size ≤ rest.length) :
    ∃ x : Operand, span op x = op.size + op.operand.size
      ∧ x.fits (offset + span op x) op.operand = true
      ∧ x.shown op.operand = Operand.ofWord op.operand (offset + (op.size + op.operand.size))
          (leNat (rest.take op.operand.size))
      ∧ rest = leBytes op.operand.size (x.word (offset + span op x))
          ++ (x.entries (offset + span op x) ++ rest.drop (op.operand.size + x.tableSize)) := by
  obtain ⟨hword, hbytes⟩ := word_taken hle
  set n := leNat (rest.take op.operand.size)
  set next := offset + (op.size + op.operand.size) with hnext
  set x := Operand.written op.operand next n with hx
  have hwritten : x.fits next op.operand = true ∧ x.word next % 256 ^ op.operand.size = n :=
    Operand.fits_written hkind hword
  have htable := Operand.tableSize_of_fits hkind hwritten.1
  have hspan : span op x = op.size + op.operand.size := by
    rw [span, htable, Nat.add_zero]
  have hnone : x.entries next = [] := by
    rw [← List.length_eq_zero_iff, Operand.length_entries, htable]
  refine ⟨x, hspan, ?_, Operand.shown_written op.operand next n, ?_⟩
  · rw [hspan]
    exact hwritten.1
  · rw [hspan, ← hnext, hnone, List.nil_append, htable, Nat.add_zero, ← leBytes_mod, hwritten.2,
      hbytes, List.take_append_drop]

/-- The bytes of a jump table are what its entries are written as. -/
theorem written_table (hkind : op.operand = .switch) (hle : op.operand.size ≤ rest.length)
    {n next : Nat} {ts : List Int} (hn : n = leNat (rest.take op.operand.size))
    (hts : ts = Operand.table next n (rest.drop op.operand.size))
    (hentries : 4 * n ≤ (rest.drop op.operand.size).length) :
    span op (.targets ts) = op.size + op.operand.size + 4 * n
      ∧ (Operand.targets ts).fits next op.operand = true
      ∧ rest = leBytes op.operand.size ts.length ++ ((Operand.targets ts).entries next
          ++ rest.drop (op.operand.size + 4 * ts.length)) := by
  obtain ⟨hword, hbytes⟩ := word_taken hle
  rw [← hn] at hword hbytes
  have hlength : ts.length = n := by rw [hts, Operand.length_table]
  have hsmall : n < 0x100000000 := by
    rw [hkind] at hword
    exact hword
  refine ⟨by rw [span, Operand.tableSize, hlength], ?_, ?_⟩
  · rw [Operand.fits_targets hkind, hlength, hts]
    exact ⟨hsmall, Operand.fits_table n _⟩
  · rw [hlength, hbytes, hts, Operand.entries_table n _ hentries, ← List.drop_drop,
      List.take_append_drop, List.take_append_drop]

/-- Whatever was read is what some fitting operand is written as. -/
theorem written_of_readOperand {i : Instruction} (h : readOperand offset op rest = .ok i) :
    ∃ x : Operand, x.fits (offset + span op x) op.operand = true
      ∧ i = ⟨offset, op, span op x, x.shown op.operand⟩
      ∧ rest = leBytes op.operand.size (x.word (offset + span op x))
          ++ (x.entries (offset + span op x) ++ rest.drop (op.operand.size + x.tableSize)) := by
  simp only [readOperand] at h
  split at h
  · cases h
  rename_i hsome
  have hle : op.operand.size ≤ rest.length := by
    rw [Bool.not_eq_true', Bool.not_eq_false, hasAtLeast_iff] at hsome
    exact hsome
  by_cases hkind : op.operand = .switch
  · rw [if_pos hkind] at h
    split at h
    · cases h
    rename_i htable
    rw [Bool.not_eq_true', Bool.not_eq_false, hasAtLeast_iff] at htable
    set n := leNat (rest.take op.operand.size) with hn
    set next := offset + (op.size + op.operand.size + 4 * n)
    set ts := Operand.table next n (rest.drop op.operand.size) with hts
    obtain ⟨hspan, hfits, hrest⟩ := written_table hkind hle hn hts htable
    refine ⟨.targets ts, ?_, ?_, ?_⟩
    · rwa [hspan]
    · rw [hspan, Operand.shown_of_ne (by rw [hkind]; decide)]
      cases h
      rfl
    · rwa [hspan]
  · rw [if_neg hkind] at h
    obtain ⟨x, hspan, hfits, hshown, hrest⟩ := written_word hkind hle
    refine ⟨x, hfits, ?_, hrest⟩
    rw [hspan, hshown]
    cases h
    rfl

theorem read_bytes (offset : Nat) (op : Opcode) (rest : List UInt8) :
    read offset (op.bytes ++ rest) = readOperand offset op rest := by
  have hcode : ∀ n, n = op.code → readCode offset n rest = readOperand offset op rest := by
    intro n hn
    rw [readCode, hn, Opcode.ofCode?_code]
  rcases op.size_cases with ⟨hsize, -⟩ | ⟨hsize, hlead⟩
  · obtain ⟨hlt, hne⟩ := op.code_oneByte hsize
    have hbyte : (UInt8.ofNat op.code).toNat = op.code := by
      rw [UInt8.toNat_ofNat']
      exact Nat.mod_eq_of_lt hlt
    rw [Opcode.bytes, if_neg (by omega), List.singleton_append]
    simp only [read]
    rw [hbyte, if_neg hne, hcode _ rfl]
  · have hsecond : Opcode.leadByte * 256 + (UInt8.ofNat op.code).toNat = op.code := by
      rw [UInt8.toNat_ofNat']
      omega
    rw [Opcode.bytes, if_pos hsize, List.cons_append, List.singleton_append]
    simp only [read]
    rw [if_pos (by decide), hcode _ hsecond]

/-- Bytes that can be read start with the number of an operation. -/
theorem bytes_of_read {bs : List UInt8} {i : Instruction} (h : read offset bs = .ok i) :
    ∃ op rest, bs = Opcode.bytes op ++ rest ∧ readOperand offset op rest = .ok i := by
  have hcode : ∀ n rest, readCode offset n rest = .ok i →
      ∃ op : Opcode, op.code = n ∧ readOperand offset op rest = .ok i := by
    intro n rest hn
    rw [readCode] at hn
    split at hn
    · rename_i op hop
      exact ⟨op, Opcode.code_of_ofCode? hop, hn⟩
    · cases hn
  cases bs with
  | nil => cases h
  | cons b rest =>
    simp only [read] at h
    split at h
    · rename_i hlead
      cases rest with
      | nil => cases h
      | cons second rest =>
        obtain ⟨op, hop, hread⟩ := hcode _ _ h
        -- Behind the leading byte the number is the byte that follows.
        have hlt : second.toNat < 256 := second.toNat_lt
        have hhigh : op.code / 256 = Opcode.leadByte := by omega
        have hsize : op.size = 2 := if_pos hhigh
        refine ⟨op, rest, ?_, hread⟩
        have hfirst : UInt8.ofNat Opcode.leadByte = b := by rw [← hlead, UInt8.ofNat_toNat]
        have hlast : UInt8.ofNat op.code = second := by
          apply UInt8.toNat_inj.mp
          rw [UInt8.toNat_ofNat', hop]
          omega
        rw [Opcode.bytes, if_pos hsize, hfirst, hlast]
        rfl
    · rename_i hlead
      obtain ⟨op, hop, hread⟩ := hcode _ _ h
      have hlt : b.toNat < 256 := b.toNat_lt
      -- A number of one byte has nothing in its upper half.
      have hhigh : op.code / 256 ≠ Opcode.leadByte := by
        rw [Opcode.leadByte]
        omega
      have hsize : op.size = 1 := if_neg hhigh
      refine ⟨op, rest, ?_, hread⟩
      rw [Opcode.bytes, if_neg (by omega), hop, UInt8.ofNat_toNat, List.singleton_append]

end Decoding

/-! ## Encoding and decoding at a place -/

section Places

variable {i : Instruction} {code : List UInt8}

/-- **A written instruction is decoded** as it is shown. -/
theorem decode_encode (hsize : i.size = span i.op i.operand) (hfits : i.fits = true)
    {rest : List UInt8} (hcode : code.drop i.offset = i.encode ++ rest) :
    decode code i.offset = .ok i.shown := by
  have hnext : i.next = i.offset + span i.op i.operand := by rw [next, hsize]
  rw [fits, hnext] at hfits
  rw [decode, hcode, encode, List.append_assoc, List.append_assoc, read_bytes, hnext,
    readOperand_written hfits, shown, ← hsize]

/-- **Whatever is decoded was written**, up to how it is shown. -/
theorem encode_of_decode {offset : Nat} {j : Instruction} (h : decode code offset = .ok j) :
    ∃ i : Instruction, i.offset = offset ∧ i.size = span i.op i.operand ∧ i.fits = true
      ∧ j = i.shown ∧ code.drop offset = i.encode ++ code.drop i.next := by
  rw [decode] at h
  obtain ⟨op, rest, hbytes, hread⟩ := bytes_of_read h
  obtain ⟨x, hfits, rfl, hrest⟩ := written_of_readOperand hread
  refine ⟨⟨offset, op, span op x, x⟩, rfl, rfl, hfits, rfl, ?_⟩
  have hencode : code.drop offset = encode ⟨offset, op, span op x, x⟩
      ++ rest.drop (op.operand.size + x.tableSize) := by
    rw [hbytes, encode, List.append_assoc, List.append_assoc]
    congr 1
  have hlength := length_encode ⟨offset, op, span op x, x⟩
  have hdrop := congrArg (List.drop (span op x)) hencode
  rw [List.drop_drop, List.drop_left' hlength] at hdrop
  rw [hencode, next, hdrop]

end Places

/-! ## Placement -/

/-- The instructions of some operations and operands, one behind the other. -/
def place : (offset : Nat) → List (Opcode × Operand) → List Instruction
  | _, [] => []
  | offset, (op, x) :: rest =>
    ⟨offset, op, span op x, x⟩ :: place (offset + span op x) rest

/-- The instructions cover the places from `start` up to `stop` without gap or overlap. -/
def Tiles : (start : Nat) → List Instruction → (stop : Nat) → Prop
  | start, [], stop => start = stop
  | start, i :: rest, stop => i.offset = start ∧ Tiles i.next rest stop

theorem size_of_mem_place {src : List (Opcode × Operand)} {offset : Nat} {i : Instruction}
    (h : i ∈ place offset src) : i.size = span i.op i.operand := by
  induction src generalizing offset with
  | nil => cases h
  | cons p rest ih =>
    rcases List.mem_cons.mp h with rfl | htail
    · rfl
    · exact ih htail

theorem tiles_shown : ∀ (src : List (Opcode × Operand)) (offset : Nat),
    Tiles offset ((place offset src).map shown)
      (offset + ((place offset src).flatMap encode).length)
  | [], _ => rfl
  | (op, x) :: rest, offset => by
    refine ⟨rfl, ?_⟩
    rw [place, List.flatMap_cons, List.length_append, length_encode, ← Nat.add_assoc]
    exact tiles_shown rest (offset + span op x)

end Instruction

/-! ## The walk -/

namespace Cursor

open Instruction (place encode shown Tiles span)

/-- A cursor without a simulation that has not stopped. -/
structure Plain (c : Cursor) : Prop where
  simulation : c.simulation = none
  fault : c.fault = none
  ended : c.ended = false

theorem Plain.arrive {c : Cursor} (h : c.Plain) (i : Instruction) : (c.arrive i).Plain := by
  refine ⟨?_, h.fault, h.ended⟩
  show c.simulation.map _ = none
  rw [h.simulation]
  rfl

theorem Plain.next {c : Cursor} (h : c.Plain) :
    c.next = if c.code.length ≤ c.nextOffset then (false, { c with ended := true })
      else match Instruction.decode c.code c.nextOffset with
        | .error f => (false, { c with fault := some f })
        | .ok i => (true, c.arrive i) := by
  have hsettle : c.settle = c := by rw [settle, h.simulation]
  have hgo : ¬ (c.fault.isSome || c.ended) = true := by
    rw [h.fault, h.ended]
    decide
  have hnofault : ¬ c.fault.isSome = true := by
    rw [h.fault]
    decide
  rw [Cursor.next, if_neg hgo, hsettle]
  exact if_neg hnofault

/-- The walk over what was written shows the placed instructions and ends. -/
theorem walk_written : ∀ (src : List (Opcode × Operand)) (c : Cursor) (left : Nat), c.Plain →
    src.length < left → (∀ i ∈ place c.nextOffset src, i.fits = true) →
      c.code.drop c.nextOffset = (place c.nextOffset src).flatMap encode →
        (c.walk (·.current) left).1 = (place c.nextOffset src).map shown
          ∧ (c.walk (·.current) left).2.ended = true
          ∧ (c.walk (·.current) left).2.fault = none := by
  intro src
  induction src with
  | nil =>
    intro c left hc hleft _ hcode
    obtain ⟨left, rfl⟩ : ∃ k, left = k + 1 := ⟨left - 1, by omega⟩
    have hend : c.code.length ≤ c.nextOffset := List.drop_eq_nil_iff.mp hcode
    rw [walk, hc.next, if_pos hend]
    exact ⟨rfl, rfl, hc.fault⟩
  | cons p rest ih =>
    intro c left hc hleft hfits hcode
    obtain ⟨op, x⟩ := p
    obtain ⟨left, rfl⟩ : ∃ k, left = k + 1 := ⟨left - 1, by omega⟩
    have hcode : c.code.drop c.nextOffset = encode ⟨c.nextOffset, op, span op x, x⟩
        ++ (place (c.nextOffset + span op x) rest).flatMap encode := hcode
    have hmem : ∀ i ∈ place (c.nextOffset + span op x) rest, i.fits = true :=
      fun i hi => hfits i (List.mem_cons_of_mem _ hi)
    set i : Instruction := ⟨c.nextOffset, op, span op x, x⟩ with hi
    have hdecode : Instruction.decode c.code c.nextOffset = .ok i.shown :=
      Instruction.decode_encode (i := i) rfl (hfits i List.mem_cons_self) hcode
    -- The next place is the end of this instruction, and the rest of the code stands there.
    have hrest : c.code.drop (c.nextOffset + span op x)
        = (place (c.nextOffset + span op x) rest).flatMap encode := by
      have hdrop := congrArg (List.drop (span op x)) hcode
      rwa [List.drop_drop, List.drop_left' (Instruction.length_encode i)] at hdrop
    have hinside : ¬ c.code.length ≤ c.nextOffset := by
      intro hle
      have hpos : 0 < i.encode.length := by
        have hop : 0 < i.op.size := op.size_pos
        rw [Instruction.length_encode, span]
        omega
      rw [List.drop_eq_nil_of_le hle] at hcode
      rw [(List.append_eq_nil_iff.mp hcode.symm).1] at hpos
      exact absurd hpos (by decide)
    have hnext : c.next = (true, c.arrive i.shown) := by rw [hc.next, if_neg hinside, hdecode]
    have hleft : rest.length < left := by
      rw [List.length_cons] at hleft
      omega
    obtain ⟨hvisited, hended, hfault⟩ := ih (c.arrive i.shown) left (hc.arrive _) hleft hmem hrest
    rw [walk, hnext]
    refine ⟨?_, hended, hfault⟩
    show (c.arrive i.shown).current :: _ = _
    rw [hvisited]
    rfl

/-- A walk that ends without a fault has gone over the encoding of a placed list. -/
theorem written_of_walk : ∀ (left : Nat) (c : Cursor), c.Plain →
    c.code.length - c.nextOffset < left → (c.walk (·.current) left).2.fault = none →
      (c.walk (·.current) left).2.ended = true
        ∧ ∃ src, (∀ i ∈ place c.nextOffset src, i.fits = true)
          ∧ (c.walk (·.current) left).1 = (place c.nextOffset src).map shown
          ∧ c.code.drop c.nextOffset = (place c.nextOffset src).flatMap encode := by
  intro left
  induction left with
  | zero => intro c _ hleft; omega
  | succ left ih =>
    intro c hc hleft hfault
    by_cases hend : c.code.length ≤ c.nextOffset
    · rw [walk, hc.next, if_pos hend]
      refine ⟨rfl, [], ?_, rfl, List.drop_eq_nil_of_le hend⟩
      intro i hi
      cases hi
    cases hdecode : Instruction.decode c.code c.nextOffset with
    | error f =>
      rw [walk, hc.next, if_neg hend, hdecode] at hfault
      cases hfault
    | ok j =>
      have hnext : c.next = (true, c.arrive j) := by rw [hc.next, if_neg hend, hdecode]
      obtain ⟨-, hlt, hin⟩ := Instruction.decode_ok hdecode
      -- The code here is the encoding of the instruction, and the rest is that of those behind it.
      obtain ⟨i, hoffset, hsize, hfit, rfl, hcode⟩ := Instruction.encode_of_decode hdecode
      have hnextOffset : (c.arrive i.shown).nextOffset = c.nextOffset + span i.op i.operand := by
        show i.offset + i.size = _
        rw [hoffset, hsize]
      rw [walk, hnext] at hfault ⊢
      have hleft : c.code.length - (c.arrive i.shown).nextOffset < left := by
        show c.code.length - i.shown.next < left
        omega
      obtain ⟨hended, src, hfits, hvisited, hrest⟩ :=
        ih (c.arrive i.shown) (hc.arrive _) hleft hfault
      rw [hnextOffset] at hfits hvisited hrest
      have hi : i = ⟨c.nextOffset, i.op, span i.op i.operand, i.operand⟩ := by
        rw [← hoffset, ← hsize]
      refine ⟨hended, (i.op, i.operand) :: src, ?_, ?_, ?_⟩
      · intro k hk
        rcases List.mem_cons.mp hk with rfl | htail
        · rwa [← hi]
        · exact hfits k htail
      · show (c.arrive i.shown).current :: _ = _
        rw [hvisited, place, List.map_cons, ← hi]
        rfl
      · have hplace : i.next = c.nextOffset + span i.op i.operand := hnextOffset
        rw [hcode, hplace, place, List.flatMap_cons, ← hi]
        exact congrArg _ hrest

theorem length_le_written : ∀ (src : List (Opcode × Operand)) (offset : Nat),
    src.length ≤ ((place offset src).flatMap encode).length
  | [], _ => Nat.zero_le _
  | (op, x) :: rest, offset => by
    have hpos := op.size_pos
    have htail := length_le_written rest (offset + span op x)
    rw [place, List.flatMap_cons, List.length_append, Instruction.length_encode, List.length_cons]
    simp only [span] at htail ⊢
    omega

/-- **Disassembly reads back what was written.** A cursor without a simulation that walks from the
start over the encodings of some placed instructions visits exactly these and ends. Conversely,
when a walk ends without a fault, what it visited tiles the code, takes the bytes of its operation
and operand, and encodes to the code; only the four-byte floating-point operands are visited in
another form than they are written in. -/
theorem walk_roundTrip {c final : Cursor} {visited : List Instruction} (hc : c.simulation = none)
    (hwalk : c.reset.walk (·.current) c.instructionBound = (visited, final)) :
    (∀ src : List (Opcode × Operand), (∀ i ∈ place 0 src, i.fits = true) →
        c.code = (place 0 src).flatMap encode →
          visited = (place 0 src).map shown
            ∧ (∀ i ∈ place 0 src, i.size = i.encode.length)
            ∧ final.ended = true ∧ final.fault = none)
      ∧ (final.fault = none →
          final.ended = true ∧ Tiles 0 visited c.code.length
            ∧ (∀ i ∈ visited, i.size = i.op.size + i.op.operand.size + i.operand.tableSize)
            ∧ ∃ src : List (Opcode × Operand), (∀ i ∈ place 0 src, i.fits = true)
              ∧ visited = (place 0 src).map shown ∧ (place 0 src).flatMap encode = c.code) := by
  have hplain : c.reset.Plain := by
    refine ⟨?_, rfl, rfl⟩
    show c.simulation.map _ = none
    rw [hc]
    rfl
  have hvisited : (c.reset.walk (·.current) c.instructionBound).1 = visited := by rw [hwalk]
  have hfinal : (c.reset.walk (·.current) c.instructionBound).2 = final := by rw [hwalk]
  refine ⟨?_, ?_⟩
  · intro src hfits hcode
    -- Every instruction takes a byte or more, so the bound is not reached.
    have hbound : src.length < c.instructionBound := by
      have hle := length_le_written src 0
      rw [← hcode] at hle
      exact Nat.lt_succ_of_le hle
    have hwritten := walk_written src c.reset c.instructionBound hplain hbound hfits hcode
    rw [hvisited, hfinal] at hwritten
    refine ⟨hwritten.1, ?_, hwritten.2⟩
    intro i hi
    rw [Instruction.length_encode, Instruction.size_of_mem_place hi]
  · intro hfault
    rw [← hfinal] at hfault
    have hbound : c.reset.code.length - c.reset.nextOffset < c.instructionBound :=
      Nat.lt_succ_of_le (Nat.sub_le _ _)
    obtain ⟨hended, src, hfits, hshown, hcode⟩ :=
      written_of_walk c.instructionBound c.reset hplain hbound hfault
    have hcode : c.code = (place 0 src).flatMap encode := hcode
    have hshown : visited = (place 0 src).map shown := by rw [← hvisited, hshown]; rfl
    refine ⟨by rw [← hfinal, hended], ?_, ?_, src, hfits, hshown, hcode.symm⟩
    · have htiles := Instruction.tiles_shown src 0
      rwa [Nat.zero_add, ← hcode, ← hshown] at htiles
    · intro i hi
      rw [hshown] at hi
      obtain ⟨j, hj, rfl⟩ := List.mem_map.mp hi
      show j.size = j.op.size + j.op.operand.size + (j.operand.shown j.op.operand).tableSize
      rw [Instruction.size_of_mem_place hj, Operand.tableSize_shown]
      rfl

/-- A jump table that leads back to the start and past the end, a constant and a long jump. -/
def sampleCode : List (Opcode × Operand) :=
  [(.ldcI4S, .int (-2)), (.switch, .targets [0, 40]), (.ldcR4, .float 0x3F800000),
    (.leaveS, .target 0), (.ceq, .none)]

theorem walk_roundTrip_sampleCode :
    (((Cursor.start none ((place 0 sampleCode).flatMap encode)).walk (·.current) 25).1
        = (place 0 sampleCode).map shown)
      ∧ Tiles 0 ((place 0 sampleCode).map shown) 24 := by
  obtain ⟨hwritten, hback⟩ :=
    walk_roundTrip (c := .start none ((place 0 sampleCode).flatMap encode)) rfl rfl
  obtain ⟨hvisited, -, -, hfault⟩ := hwritten sampleCode (by decide) rfl
  obtain ⟨-, htiles, -⟩ := hback hfault
  rw [hvisited] at htiles
  exact ⟨hvisited, htiles⟩

end Cursor

end ManagedImage
