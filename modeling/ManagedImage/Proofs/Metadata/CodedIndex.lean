/-
Coded indexes as quotient and remainder.

A coded index is a row times the number of tags, plus a tag below that number;
everything else follows from division with remainder once the shift is known not
to leave 32 bits. The width of a cell asks that the rows of every member table,
times the number of tags, stay below 2^16: this is the same bound read from
the other side, so an index to an existing row always fits (`pack?_lt_width`).
-/
import ManagedImage.Assemble.Coded

set_option autoImplicit false

namespace ManagedImage

/-- A token of a table is made from the table and its row. -/
theorem Token.make_row {tok : Token} {t : TableId} (h : tok.table? = some t) :
    Token.make t tok.row = tok := by
  have hcode : t.code = tok.toNat / Token.rowSpan := TableId.ofCode?_eq_some_iff.mp h
  have hlt : tok.toNat < 0x100000000 := tok.value.toNat_lt
  have hvalue : (Token.make t tok.row).toNat = tok.toNat := by
    unfold Token.rowSpan at hcode
    simp only [Token.make, Token.ofParts, Token.row, Token.toNat_ofNat, Token.rowSpan]
    omega
  cases tok
  exact congrArg Token.mk (UInt32.toNat_inj.mp hvalue)

namespace CodedKind

variable {k : CodedKind} {t : TableId} {tag row v : Nat}

theorem tagSpan_pos (k : CodedKind) : 0 < k.tagSpan := by cases k <;> decide

theorem tagSpan_le (k : CodedKind) : k.tagSpan ≤ 32 := by cases k <;> decide

/-- Rows below the threshold leave room for the tag in sixteen bits. -/
theorem threshold_mul_tagSpan (k : CodedKind) :
    2 ^ (16 - k.tagBits) * k.tagSpan = 0x10000 := by cases k <;> decide

theorem length_slots_le (k : CodedKind) : k.slots.length ≤ k.tagSpan := by cases k <;> decide

/-- The slot of a tag that was looked up is the one that was looked for. -/
theorem getElem?_slotTag? {slot : Option TableId} (h : k.slotTag? slot = some tag) :
    k.slots[tag]? = some slot := by
  obtain ⟨hlt, htrue, -⟩ := List.findIdx?_eq_some_iff_getElem.mp h
  rw [List.getElem?_eq_getElem hlt, of_decide_eq_true htrue]

theorem slotTag?_lt {slot : Option TableId} (h : k.slotTag? slot = some tag) : tag < k.tagSpan :=
  Nat.lt_of_lt_of_le (List.getElem?_eq_some_iff.mp (getElem?_slotTag? h)).1 k.length_slots_le

theorem tableOf?_of_slotTag? (h : k.slotTag? (some t) = some tag) : k.tableOf? tag = some t := by
  rw [tableOf?, getElem?_slotTag? h]
  rfl

theorem mem_tables_of_slotTag? (h : k.slotTag? (some t) = some tag) : t ∈ k.tables := by
  rw [tables, List.mem_filterMap]
  exact ⟨some t, List.mem_of_getElem? (getElem?_slotTag? h), rfl⟩

/-- The assembler and the reader have the same tags in the same order. -/
theorem tagLayout_eq (k : CodedKind) :
    Assemble.tagLayout k = ⟨k.tagBits, k.slots.map Assemble.slotNumber⟩ := by cases k <;> rfl

theorem slotNumber_inj {a b : Option TableId} :
    Assemble.slotNumber a = Assemble.slotNumber b ↔ a = b := by
  constructor
  · intro h
    cases a with
    | none =>
      cases b with
      | none => rfl
      | some u => cases h
    | some t =>
      cases b with
      | none => cases h
      | some u =>
        have hcode := congrArg TableId.ofCode? (Int.ofNat_inj.mp h)
        rwa [TableId.ofCode?_code, TableId.ofCode?_code] at hcode
  · rintro rfl
    rfl

/-- A slot is packed with the tag that the reader has for it. -/
theorem pack?_eq (k : CodedKind) (slot : Option TableId) (row : Nat) :
    k.pack? slot row = (k.slotTag? slot).map fun tag => row * k.tagSpan % 0x100000000 + tag := by
  rw [pack?, Assemble.coded?, tagLayout_eq, List.findIdx?_map, slotTag?, tagSpan]
  congr 2
  funext a
  exact decide_eq_decide.mpr slotNumber_inj

/-- A row that a token can hold is packed without loss. -/
theorem pack?_eq_some (hrow : row < Token.rowSpan) (h : k.pack? (some t) row = some v) :
    ∃ tag, k.slotTag? (some t) = some tag ∧ v = row * k.tagSpan + tag := by
  rw [pack?_eq, Option.map_eq_some_iff] at h
  obtain ⟨tag, htag, rfl⟩ := h
  -- A row of a token has 24 bits and a tag at most five, so the shift stays below 32 bits.
  have hmul : row * k.tagSpan < 0x100000000 := by
    rw [Token.rowSpan] at hrow
    have hle := Nat.mul_le_mul_left row k.tagSpan_le
    omega
  exact ⟨tag, htag, by rw [Nat.mod_eq_of_lt hmul]⟩

/-- A row and the tag of a table decode to the token of that table and row. -/
theorem decode_mul_add (htag : k.slotTag? (some t) = some tag) (row : Nat) :
    k.decode (row * k.tagSpan + tag) = .ok (Token.make t row) := by
  have hmod : (row * k.tagSpan + tag) % k.tagSpan = tag := by
    rw [Nat.mul_add_mod_self_right, Nat.mod_eq_of_lt (slotTag?_lt htag)]
  have hdiv : (row * k.tagSpan + tag) / k.tagSpan = row := by
    rw [Nat.add_comm, Nat.add_mul_div_right _ _ k.tagSpan_pos, Nat.div_eq_of_lt (slotTag?_lt htag),
      Nat.zero_add]
  rw [decode, hmod, tableOf?_of_slotTag? htag, hdiv]

/-- **A packed reference decodes to the token of its table and row.** -/
theorem decode_pack? (hrow : row < Token.rowSpan) (h : k.pack? (some t) row = some v) :
    k.decode v = .ok (Token.make t row) := by
  obtain ⟨tag, htag, rfl⟩ := pack?_eq_some hrow h
  exact decode_mul_add htag row

/-- What a token is encoded as: its row and the tag of its table. -/
theorem encode_ok {tok : Token} (h : k.encode tok = .ok v) :
    ∃ t tag, tok.table? = some t ∧ k.slotTag? (some t) = some tag
      ∧ v = tok.row * k.tagSpan + tag := by
  unfold encode at h
  cases htag : tok.table?.bind k.tagOf? with
  | none =>
    rw [htag] at h
    cases h
  | some tag =>
    rw [htag] at h
    obtain ⟨t, htable, hslot⟩ := Option.bind_eq_some_iff.mp htag
    exact ⟨t, tag, htable, hslot, (Except.ok.inj h).symm⟩

/-- **A token that has a coded index is decoded from it.** -/
theorem decode_encode {tok : Token} (h : k.encode tok = .ok v) : k.decode v = .ok tok := by
  obtain ⟨t, tag, htable, htag, rfl⟩ := encode_ok h
  rw [decode_mul_add htag, Token.make_row htable]

/-- A coded index decodes to a token of a member table. -/
theorem decode_eq_ok {tok : Token} (h : k.decode v = .ok tok) :
    ∃ t ∈ k.tables, tok.table? = some t := by
  unfold decode at h
  cases htable : k.tableOf? (v % k.tagSpan) with
  | none =>
    rw [htable] at h
    cases h
  | some t =>
    rw [htable] at h
    refine ⟨t, ?_, ?_⟩
    · rw [tables, List.mem_filterMap]
      exact ⟨some t, List.mem_of_getElem? (Option.join_eq_some_iff.mp htable), rfl⟩
    · rw [← Except.ok.inj h, Token.table?_make]

/-- No table has two tags. -/
theorem slots_distinct (k : CodedKind) : k.slots.Pairwise fun a b => a = b → a = none := by
  cases k <;> decide

theorem tagOf?_of_tableOf? (h : k.tableOf? tag = some t) : k.tagOf? t = some tag := by
  obtain ⟨hlt, hslot⟩ := List.getElem?_eq_some_iff.mp (Option.join_eq_some_iff.mp h)
  refine List.findIdx?_eq_some_iff_getElem.mpr ⟨hlt, decide_eq_true hslot, fun j hj => ?_⟩
  rw [decide_eq_true_eq]
  intro hearlier
  have hnone := List.pairwise_iff_getElem.mp k.slots_distinct j tag (by omega) hlt hj
    (hearlier.trans hslot.symm)
  rw [hearlier] at hnone
  cases hnone

/-- **Encoding is the inverse of decoding**, as long as the row fits into a token. -/
theorem encode_eq_ok_iff {tok : Token} (hrow : v / k.tagSpan < Token.rowSpan) :
    k.encode tok = .ok v ↔ k.decode v = .ok tok := by
  refine ⟨decode_encode, fun h => ?_⟩
  unfold decode at h
  cases htable : k.tableOf? (v % k.tagSpan) with
  | none =>
    rw [htable] at h
    cases h
  | some t =>
    rw [htable] at h
    rw [← Except.ok.inj h, encode, Token.table?_make, Option.bind_some, tagOf?_of_tableOf? htable,
      Token.row_make, Nat.mod_eq_of_lt hrow, Nat.mul_comm]
    exact congrArg Except.ok (Nat.div_add_mod v k.tagSpan)

/-- The tokens that can be encoded are those of the member tables. -/
theorem exists_encode_iff {tok : Token} :
    (∃ v, k.encode tok = .ok v) ↔ ∃ t ∈ k.tables, tok.table? = some t := by
  refine ⟨fun ⟨v, h⟩ => decode_eq_ok (decode_encode h), fun ⟨t, ht, htok⟩ => ?_⟩
  rw [tables, List.mem_filterMap] at ht
  obtain ⟨slot, hmem, rfl⟩ := ht
  obtain ⟨tag, hlt, hslot⟩ := List.getElem_of_mem hmem
  have htable : k.tableOf? tag = some t :=
    Option.join_eq_some_iff.mpr (List.getElem?_eq_some_iff.mpr ⟨hlt, hslot⟩)
  refine ⟨tok.row * k.tagSpan + tag, ?_⟩
  rw [encode, htok, Option.bind_some, tagOf?_of_tableOf? htable]

/-- A row and a tag take less than the next row. -/
theorem mul_add_tag_lt (htag : tag < k.tagSpan) {n : Nat} (hrow : row < n) :
    row * k.tagSpan + tag < n * k.tagSpan := by
  have hle := Nat.mul_le_mul_right k.tagSpan (Nat.succ_le_of_lt hrow)
  rw [Nat.succ_mul] at hle
  omega

/-- **A packed reference to an existing row fits its cell**, whatever the other member tables
are. -/
theorem pack?_lt_width {rows : TableId → Nat} (hrow : row ≤ rows t) (hrows : rows t < Token.rowSpan)
    (h : k.pack? (some t) row = some v) : v < 256 ^ (k.width rows) := by
  obtain ⟨tag, htag, rfl⟩ := pack?_eq_some (Nat.lt_of_le_of_lt hrow hrows) h
  have hlt := slotTag?_lt htag
  rw [width]
  by_cases hany : k.tables.any fun t => 2 ^ (16 - k.tagBits) ≤ rows t
  · rw [if_pos hany]
    -- A wide cell holds every index that can be packed.
    have hspan := Nat.mul_le_mul_left Token.rowSpan k.tagSpan_le
    have hfits := mul_add_tag_lt hlt (Nat.lt_of_le_of_lt hrow hrows)
    have hword : Token.rowSpan * 32 < 256 ^ 4 := by decide
    omega
  · rw [if_neg hany]
    -- No member table reaches the threshold, so the table at hand does not.
    have hsmall : rows t < 2 ^ (16 - k.tagBits) := by
      apply Nat.lt_of_not_le
      intro hle
      exact hany (List.any_eq_true.mpr ⟨t, mem_tables_of_slotTag? htag, decide_eq_true hle⟩)
    have hfits := mul_add_tag_lt hlt (Nat.lt_of_le_of_lt hrow hsmall)
    rw [threshold_mul_tagSpan] at hfits
    exact hfits

end CodedKind

end ManagedImage
