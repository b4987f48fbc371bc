/-
Documents read back.

A canonical item says in its head what it is and how much of it there is, so reading takes
just what was written, whatever follows. For every document the outcome is known beforehand
(`readItem_write`): the reader keeps to its limits, and a document within them is read as
`Document.item`, one beyond them is refused. Nothing else can come of it.

The induction is on the document. What it needs of a list or a record is one statement about
steps that each take what one member wrote (`times_flatMap`); the members of a record are
written in the order of their keys, and so its item has them in that order.
-/
import ManagedImage.Report.Cbor
import Mathlib.Data.List.Forall2

set_option autoImplicit false

namespace ManagedImage.Report.Cbor

/-! ## Heads -/

/-- The first byte of a head. -/
def firstByte (m : Major) (info : Nat) : UInt8 := UInt8.ofNat (m.code * 32 + info)

theorem toNat_firstByte (m : Major) {info : Nat} (h : info < 32) :
    (firstByte m info).toNat = m.code * 32 + info := by
  have hcode : m.code < 8 := by cases m <;> decide
  rw [firstByte, UInt8.toNat_ofNat']
  exact Nat.mod_eq_of_lt (by omega)

theorem ofByte_firstByte (m : Major) {info : Nat} (h : info < 32) :
    Major.ofByte (firstByte m info) = m := by
  have hcode : (firstByte m info).toNat / 32 = m.code := by
    rw [toNat_firstByte m h]
    omega
  rw [Major.ofByte, hcode]
  cases m <;> rfl

theorem info_firstByte (m : Major) {info : Nat} (h : info < 32) :
    (firstByte m info).toNat % 32 = info := by
  rw [toNat_firstByte m h]
  omega

/-- How many bytes of a number follow the first byte of its shortest head. -/
def headWidth (n : Nat) : Nat :=
  if n < 24 then 0 else if n < 0x100 then 1 else if n < 0x10000 then 2
  else if n < 0x100000000 then 4 else 8

/-- Whatever number a head carries, its first byte is one of its major type. -/
theorem head_eq (m : Major) (n : Nat) :
    ∃ info tail, info < 31 ∧ head m n = firstByte m info :: tail := by
  unfold head
  dsimp only
  split
  · exact ⟨n, [], by omega, rfl⟩
  · split
    · exact ⟨24, _, by omega, rfl⟩
    · split
      · exact ⟨25, _, by omega, rfl⟩
      · split
        · exact ⟨26, _, by omega, rfl⟩
        · exact ⟨27, _, by omega, rfl⟩

theorem startsTag_head (m : Major) (n : Nat) (rest : List UInt8) :
    startsTag (head m n ++ rest) = decide (m = .tag) := by
  obtain ⟨info, tail, hinfo, hhead⟩ := head_eq m n
  rw [startsTag, hhead, List.cons_append, List.head?_cons, Option.map_some,
    ofByte_firstByte m (by omega)]
  simp only [Option.some.injEq]

/-- A head whose number stands in the bytes that follow. -/
theorem readHead_wide {m : Major} (hm : m ≠ .simple) {info width n : Nat} (hinfo : info < 31)
    (hfollow : followers? info = some (width + 1)) (hn : n < 256 ^ (width + 1))
    (rest : List UInt8) :
    readHead (firstByte m info :: bigEndian (width + 1) n ++ rest)
      = some (m, .value n (width + 1), rest) := by
  have hlen : (bigEndian (width + 1) n).length = width + 1 := by
    rw [bigEndian, List.length_reverse, length_leBytes]
  have htake : (bigEndian (width + 1) n ++ rest).take (width + 1) = bigEndian (width + 1) n :=
    List.take_left' hlen
  have hdrop : (bigEndian (width + 1) n ++ rest).drop (width + 1) = rest := List.drop_left' hlen
  have hlong : ¬ (bigEndian (width + 1) n ++ rest).length < width + 1 := by
    rw [List.length_append, hlen]
    omega
  have hvalue : leNat (bigEndian (width + 1) n).reverse = n := by
    rw [bigEndian, List.reverse_reverse, leNat_leBytes, Nat.mod_eq_of_lt hn]
  rw [List.cons_append, readHead]
  simp only [ofByte_firstByte m (show info < 32 by omega), info_firstByte m (show info < 32 by omega)]
  rw [if_neg (by omega), hfollow]
  simp only [if_neg hlong, htake, hdrop, hvalue, hm, false_and, if_false]

/-- **A head is read back**: its major type and its number, and nothing of what follows. -/
theorem readHead_head {m : Major} {n : Nat} (hn : n < 0x10000000000000000)
    (hm : m ≠ .simple ∨ n < 24) (rest : List UInt8) :
    readHead (head m n ++ rest) = some (m, .value n (headWidth n), rest) := by
  by_cases hsmall : n < 24
  · have hhead : head m n = [firstByte m n] := by rw [head, if_pos hsmall]; rfl
    rw [hhead, headWidth, if_pos hsmall, List.singleton_append, readHead]
    simp only [ofByte_firstByte m (show n < 32 by omega), info_firstByte m (show n < 32 by omega)]
    rw [if_neg (by omega), followers?, if_pos hsmall]
    rfl
  · have hne : m ≠ .simple := hm.resolve_right hsmall
    unfold head headWidth
    simp only [if_neg hsmall]
    split
    · exact readHead_wide hne (by omega) rfl (by assumption) rest
    · split
      · exact readHead_wide hne (by omega) rfl (by assumption) rest
      · split
        · exact readHead_wide hne (by omega) rfl (by assumption) rest
        · exact readHead_wide hne (by omega) rfl hn rest

/-- Bytes of a number that fits its head are taken off the front. -/
theorem readBytes_append (bs rest : List UInt8) :
    readBytes bs.length (bs ++ rest) = some (bs, rest) := by
  rw [readBytes, if_neg (by rw [List.length_append]; omega), List.take_left, List.drop_left]

/-! ## Documents and their items -/

mutual

/-- The item that the bytes of a document hold. -/
def item : Document → Item
  | .null => .simple nullCode
  | .bool b => .simple (if b then trueCode else falseCode)
  | .number n => if n < 0 then .negative (-1 - n).toNat else .natural n.toNat
  | .text t => .text [t.toList]
  | .list items => .array (itemAll items)
  | .record fields =>
    let members := (itemFields fields).mergeSort fun a b => keyBefore a.1 b.1
    .map (members.map fun m => (.text [(Text.ofString m.1).toList], m.2))

/-- The items of a list. -/
def itemAll : List Document → List Item
  | [] => []
  | d :: rest => item d :: itemAll rest

/-- The items of the values of a record, each with its key. -/
def itemFields : List (String × Document) → List (String × Item)
  | [] => []
  | (name, d) :: rest => (name, item d) :: itemFields rest

end

mutual

/-- Whether a document keeps to the limits of a reader with so many levels. -/
def fits : Document → (levels : Nat) → Bool
  | .list _, 0 | .record _, 0 => false
  | .list items, levels + 1 => items.length ≤ maxMembers && fitsAll items levels
  | .record fields, levels + 1 => fields.length ≤ maxMembers && fitsFields fields levels
  | .null, _ | .bool _, _ | .number _, _ | .text _, _ => true

/-- Whether all members of a list do. -/
def fitsAll : List Document → (levels : Nat) → Bool
  | [], _ => true
  | d :: rest, levels => fits d levels && fitsAll rest levels

/-- Whether all values of a record do. -/
def fitsFields : List (String × Document) → (levels : Nat) → Bool
  | [], _ => true
  | (_, d) :: rest, levels => fits d levels && fitsFields rest levels

end

mutual

/-- Every number, and the length of every text, list and record, has a place in a head. -/
def Sized : Document → Prop
  | .null | .bool _ => True
  | .number n => -0x10000000000000000 ≤ n ∧ n < 0x10000000000000000
  | .text t => t.size < 0x10000000000000000
  | .list items => items.length < 0x10000000000000000 ∧ SizedAll items
  | .record fields => fields.length < 0x10000000000000000 ∧ SizedFields fields

/-- The same for all members of a list. -/
def SizedAll : List Document → Prop
  | [] => True
  | d :: rest => Sized d ∧ SizedAll rest

/-- The same for all keys and values of a record. -/
def SizedFields : List (String × Document) → Prop
  | [] => True
  | (name, d) :: rest =>
    (Text.ofString name).size < 0x10000000000000000 ∧ Sized d ∧ SizedFields rest

end

/-! ## Lists and records member by member -/

section Members

variable (items : List Document) (fields : List (String × Document)) (levels : Nat)

theorem writeItems_eq : writeItems items = items.flatMap write := by
  induction items with
  | nil => rfl
  | cons d rest ih => rw [writeItems, ih, List.flatMap_cons]

theorem itemAll_eq : itemAll items = items.map item := by
  induction items with
  | nil => rfl
  | cons d rest ih => rw [itemAll, ih, List.map_cons]

theorem fitsAll_eq : fitsAll items levels = items.all fun d => fits d levels := by
  induction items with
  | nil => rfl
  | cons d rest ih => rw [fitsAll, ih, List.all_cons]

theorem sizedAll_iff : SizedAll items ↔ ∀ d ∈ items, Sized d := by
  induction items with
  | nil => simp [SizedAll]
  | cons d rest ih => rw [SizedAll, ih, List.forall_mem_cons]

theorem writeFields_eq : writeFields fields = fields.map fun f => (f.1, write f.2) := by
  induction fields with
  | nil => rfl
  | cons f rest ih => rw [writeFields, ih, List.map_cons]

theorem itemFields_eq : itemFields fields = fields.map fun f => (f.1, item f.2) := by
  induction fields with
  | nil => rfl
  | cons f rest ih => rw [itemFields, ih, List.map_cons]

theorem fitsFields_eq : fitsFields fields levels = fields.all fun f => fits f.2 levels := by
  induction fields with
  | nil => rfl
  | cons f rest ih => rw [fitsFields, ih, List.all_cons]

theorem sizedFields_iff : SizedFields fields
    ↔ ∀ f ∈ fields, (Text.ofString f.1).size < 0x10000000000000000 ∧ Sized f.2 := by
  induction fields with
  | nil => simp [SizedFields]
  | cons f rest ih => rw [SizedFields, ih, List.forall_mem_cons, and_assoc]

/-- The fields of a record in the order of their keys. -/
def inKeyOrder : List (String × Document) := fields.mergeSort fun a b => keyBefore a.1 b.1

theorem perm_inKeyOrder : (inKeyOrder fields).Perm fields := List.mergeSort_perm ..

/-- A record is written in the order of its keys. -/
theorem write_record : write (.record fields) = head .map fields.length
    ++ (inKeyOrder fields).flatMap fun f => writeText f.1 ++ write f.2 := by
  rw [write, writeFields_eq, inKeyOrder]
  congr 1
  rw [← List.map_mergeSort (r := fun a b => keyBefore a.1 b.1) (fun _ _ _ _ => rfl),
    List.flatMap_map]

/-- And its item has the same order. -/
theorem item_record : item (.record fields) = .map ((inKeyOrder fields).map fun f =>
    (.text [(Text.ofString f.1).toList], item f.2)) := by
  rw [item, itemFields_eq, inKeyOrder]
  congr 1
  rw [← List.map_mergeSort (r := fun a b => keyBefore a.1 b.1) (fun _ _ _ _ => rfl), List.map_map]
  rfl

end Members

/-! ## Reading -/

/-- How members are read within so many levels, if they are. -/
def innerStep : (levels : Nat) → Option (Step Item)
  | 0 => none
  | levels + 1 => some (readItem levels)

/-- An item without a tag is read by its head. -/
theorem readItem_head {m : Major} (hm : m ≠ .tag) (n levels : Nat) (rest : List UInt8) :
    readItem levels (head m n ++ rest) = readContent (innerStep levels) (head m n ++ rest) := by
  have hread : readItem levels = readWith (innerStep levels) := by cases levels <;> rfl
  rw [hread, readWith, startsTag_head, decide_eq_false hm]
  rfl

/-- **Steps that each take what one member wrote** take what all of them wrote, and refuse it if one
of them is refused. -/
theorem times_flatMap {α β : Type} {step : Step β} {bytes : α → List UInt8} {value : α → β}
    {ok : α → Bool} (xs : List α) (h : ∀ x ∈ xs, ∀ rest,
      step (bytes x ++ rest) = if ok x then some (value x, rest) else none) (rest : List UInt8) :
    times step xs.length (xs.flatMap bytes ++ rest)
      = if xs.all ok then some (xs.map value, rest) else none := by
  induction xs with
  | nil => rfl
  | cons x xs ih =>
    obtain ⟨hx, hxs⟩ := List.forall_mem_cons.mp h
    rw [List.flatMap_cons, List.append_assoc, List.length_cons, times, hx, List.all_cons]
    cases ok x with
    | false => rfl
    | true =>
      simp only [if_true, Option.bind_eq_bind, Option.bind_some, ih hxs, Bool.true_and]
      cases xs.all ok <;> rfl

/-- Members are read if there are not too many of them. -/
theorem readMembers_flatMap {α β : Type} {step : Step β} {bytes : α → List UInt8} {value : α → β}
    {ok : α → Bool} (xs : List α) (h : ∀ x ∈ xs, ∀ rest,
      step (bytes x ++ rest) = if ok x then some (value x, rest) else none) (width : Nat)
    (rest : List UInt8) :
    readMembers step (.value xs.length width) (xs.flatMap bytes ++ rest)
      = if xs.length ≤ maxMembers && xs.all ok then some (xs.map value, rest) else none := by
  rw [readMembers]
  by_cases hmany : maxMembers < xs.length
  · rw [if_pos hmany, decide_eq_false (Nat.not_le.mpr hmany)]
    rfl
  · rw [if_neg hmany, times_flatMap xs h, decide_eq_true (Nat.le_of_not_lt hmany), Bool.true_and]

/-- What comes of reading the bytes of a document. -/
def Outcome (levels : Nat) (d : Document) : Prop :=
  ∀ rest, readItem levels (write d ++ rest)
    = if fits d levels then some (item d, rest) else none

theorem readItem_simple {n : Nat} (hn : n < 24) (levels : Nat) (rest : List UInt8) :
    readItem levels (head .simple n ++ rest) = some (.simple n, rest) := by
  rw [readItem_head (by decide), readContent, readHead_head (by omega) (.inr hn)]
  simp only [Option.bind_eq_bind, Option.bind_some, headWidth, if_pos hn]
  rfl

theorem readItem_writeText {t : Text} (h : t.size < 0x10000000000000000) (levels : Nat)
    (rest : List UInt8) :
    readItem levels (writeText t ++ rest) = some (.text [t.toList], rest) := by
  have hlen : t.size = t.toList.length := Array.length_toList.symm
  rw [writeText, List.append_assoc, readItem_head (by decide), readContent,
    readHead_head h (.inl (by decide))]
  simp only [Option.bind_eq_bind, Option.bind_some, readChunks]
  rw [hlen, readBytes_append]
  rfl

theorem readItem_writeNumber {n : Int} (hlo : -0x10000000000000000 ≤ n)
    (hhi : n < 0x10000000000000000) (levels : Nat) (rest : List UInt8) :
    readItem levels (writeNumber n ++ rest) = some (item (.number n), rest) := by
  unfold writeNumber item
  split
  · rw [readItem_head (by decide), readContent, readHead_head (by omega) (.inl (by decide))]
    rfl
  · rw [readItem_head (by decide), readContent, readHead_head (by omega) (.inl (by decide))]
    rfl

theorem outcome_list {items : List Document} (hlen : items.length < 0x10000000000000000)
    (h : ∀ d ∈ items, ∀ levels, Outcome levels d) (levels : Nat) :
    Outcome levels (.list items) := by
  intro rest
  rw [write, List.append_assoc, readItem_head (by decide), readContent,
    readHead_head hlen (.inl (by decide)), writeItems_eq]
  cases levels with
  | zero => rfl
  | succ levels =>
    have hmembers := readMembers_flatMap items (fun d hd => h d hd levels)
      (headWidth items.length) rest
    simp only [Option.bind_eq_bind, Option.bind_some, innerStep, hmembers, fits, fitsAll_eq, item,
      itemAll_eq]
    split <;> rfl

theorem outcome_record {fields : List (String × Document)}
    (hlen : fields.length < 0x10000000000000000)
    (hkeys : ∀ f ∈ fields, (Text.ofString f.1).size < 0x10000000000000000)
    (h : ∀ f ∈ fields, ∀ levels, Outcome levels f.2) (levels : Nat) :
    Outcome levels (.record fields) := by
  intro rest
  have hperm := perm_inKeyOrder fields
  rw [write_record, List.append_assoc, readItem_head (by decide), readContent,
    readHead_head hlen (.inl (by decide))]
  cases levels with
  | zero => rfl
  | succ levels =>
    -- A key is read whatever it is, so a pair is read if its value is.
    have hpair : ∀ f ∈ inKeyOrder fields, ∀ rest,
        readPair (readItem levels) (writeText f.1 ++ write f.2 ++ rest)
          = if fits f.2 levels
            then some ((.text [(Text.ofString f.1).toList], item f.2), rest) else none := by
      intro f hf rest
      have hmem := hperm.mem_iff.mp hf
      rw [readPair, List.append_assoc, readItem_writeText (hkeys f hmem)]
      simp only [Option.bind_eq_bind, Option.bind_some]
      rw [h f hmem levels rest]
      cases fits f.2 levels <;> rfl
    have hmembers := readMembers_flatMap (inKeyOrder fields) hpair (headWidth fields.length) rest
    rw [hperm.length_eq] at hmembers
    simp only [Option.bind_eq_bind, Option.bind_some, innerStep, hmembers, fits, fitsFields_eq,
      item_record, hperm.all_eq]
    split <;> rfl

mutual

/-- **A document is read back** as its item if it keeps to the limits, and refused if it does not,
whatever follows it. -/
theorem outcome (d : Document) (hd : Sized d) (levels : Nat) : Outcome levels d := by
  cases d with
  | null => exact readItem_simple (show nullCode < 24 by decide) levels
  | bool b =>
    cases b with
    | false => exact readItem_simple (show falseCode < 24 by decide) levels
    | true => exact readItem_simple (show trueCode < 24 by decide) levels
  | number n => exact readItem_writeNumber hd.1 hd.2 levels
  | text t => exact readItem_writeText hd levels
  | list items => exact outcome_list hd.1 (outcome_all items hd.2) levels
  | record fields =>
    have hkeys := fun f hf => ((sizedFields_iff fields).mp hd.2 f hf).1
    exact outcome_record hd.1 hkeys (outcome_fields fields hd.2) levels

theorem outcome_all (items : List Document) (h : SizedAll items) :
    ∀ d ∈ items, ∀ levels, Outcome levels d := by
  cases items with
  | nil => exact fun d hd => absurd hd List.not_mem_nil
  | cons d rest =>
    exact List.forall_mem_cons.mpr ⟨fun levels => outcome d h.1 levels, outcome_all rest h.2⟩

theorem outcome_fields (fields : List (String × Document)) (h : SizedFields fields) :
    ∀ f ∈ fields, ∀ levels, Outcome levels f.2 := by
  cases fields with
  | nil => exact fun f hf => absurd hf List.not_mem_nil
  | cons f rest =>
    obtain ⟨name, d⟩ := f
    exact List.forall_mem_cons.mpr
      ⟨fun levels => outcome d h.2.1 levels, outcome_fields rest h.2.2⟩

end

/-- The bytes of a document hold its item, or nothing that can be read. -/
theorem read_write (d : Document) (hd : Sized d) :
    read (write d) = if fits d maxLevels then some (item d) else none := by
  have hread := outcome d hd maxLevels []
  rw [List.append_nil] at hread
  rw [read, hread]
  cases fits d maxLevels <;> rfl

end ManagedImage.Report.Cbor
