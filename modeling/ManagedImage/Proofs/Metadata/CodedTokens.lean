/-
Coded indexes against tokens.

A coded index has up to thirty-one bits for the row, a token has twenty-four. As
long as the row fits into a token the two say the same: each is found from the
other, the assembler packs what the reader encodes, the compressed form of
signatures has room for it, and so has the cell that the row counts ask for.

Rows that do not fit are cut off when the token is made. So the tokens are the
residues of the indexes modulo `k.period`, and every index that is decoded shares
its token with another one.
-/
import ManagedImage.Proofs.Bytes.Signs
import ManagedImage.Proofs.Signature.Reads

set_option autoImplicit false

namespace ManagedImage

/-- The row of a token is one of those that a token can tell apart. -/
theorem Token.row_lt (tok : Token) : tok.row < Token.rowSpan := Nat.mod_lt _ (by decide)

/-- A token is made from the table and from the row as far as there is room for it. -/
theorem Token.make_eq_iff {t u : TableId} {r s : Nat} :
    Token.make t r = Token.make u s ↔ t = u ∧ r % Token.rowSpan = s % Token.rowSpan := by
  constructor
  · intro h
    have htable := congrArg Token.table? h
    have hrow := congrArg Token.row h
    rw [Token.table?_make, Token.table?_make] at htable
    rw [Token.row_make, Token.row_make] at hrow
    exact ⟨Option.some.inj htable, hrow⟩
  · rintro ⟨rfl, hrow⟩
    rw [Token.make, Token.make, Token.ofParts, Token.ofParts, hrow]

namespace CodedKind

variable {k : CodedKind} {t : TableId} {tok tok' : Token} {v w : Nat}

/-! ## Decoding by tag -/

/-- The fault of a value whose tag refers to no table. -/
def tagFault (k : CodedKind) (v : Nat) : Fault :=
  .format .table Fault.noOffset
    ("invalid " ++ k.name ++ s!" tag {v % k.tagSpan} in 0x" ++ hex v : String)

/-- The tag is past the list of the kind, or reserved in it. -/
def Untabled (k : CodedKind) (tag : Nat) : Prop :=
  k.slots[tag]? = none ∨ k.slots[tag]? = some none

/-- A value is refused for its tag, or gives the token of its table and row. -/
theorem decode_cases (k : CodedKind) (v : Nat) :
    (k.Untabled (v % k.tagSpan) ∧ k.decode v = .error (k.tagFault v))
      ∨ ∃ t, k.slotTag? (some t) = some (v % k.tagSpan)
        ∧ k.decode v = .ok (Token.make t (v / k.tagSpan)) := by
  cases htable : k.tableOf? (v % k.tagSpan) with
  | none =>
    refine Or.inl ⟨Option.join_eq_none_iff.mp htable, ?_⟩
    rw [decode, htable]
    rfl
  | some t =>
    refine Or.inr ⟨t, tagOf?_of_tableOf? htable, ?_⟩
    rw [decode, htable]

theorem decode_ok (h : k.decode v = .ok tok) :
    ∃ t, k.slotTag? (some t) = some (v % k.tagSpan) ∧ tok = Token.make t (v / k.tagSpan) := by
  rcases decode_cases k v with ⟨-, herror⟩ | ⟨t, htag, hok⟩
  · rw [herror] at h
    cases h
  · rw [hok] at h
    exact ⟨t, htag, (Except.ok.inj h).symm⟩

/-! ## Encoding -/

/-- **The assembler packs what the reader encodes.** -/
theorem coded?_of_encode (h : k.encode tok = .ok v) :
    Assemble.coded? k tok.tableNumber tok.row = some v := by
  obtain ⟨t, tag, htable, htag, rfl⟩ := encode_ok h
  have hnumber : (tok.tableNumber : Int) = Assemble.slotNumber (some t) :=
    congrArg Int.ofNat (TableId.ofCode?_eq_some_iff.mp htable).symm
  have hpack : k.pack? (some t) tok.row = some (tok.row * k.tagSpan % 0x100000000 + tag) := by
    rw [pack?_eq, htag]
    rfl
  obtain ⟨tag', htag', hvalue⟩ := pack?_eq_some tok.row_lt hpack
  obtain rfl : tag = tag' := Option.some.inj (htag.symm.trans htag')
  rw [← hvalue, hnumber]
  exact hpack

/-- A row that fits into a token leaves room for a tag of five bits in a compressed integer. -/
theorem encode_le_maxValue (h : k.encode tok = .ok v) : v ≤ Compressed.maxValue := by
  obtain ⟨t, tag, -, htag, rfl⟩ := encode_ok h
  have hlt := mul_add_tag_lt (slotTag?_lt htag) tok.row_lt
  have hspan := Nat.mul_le_mul_left Token.rowSpan k.tagSpan_le
  have hroom : Token.rowSpan * 32 = Compressed.maxValue + 1 := rfl
  omega

/-- The token of an existing row is encoded in a number that fits its cell. -/
theorem encode_lt_width {rows : TableId → Nat} {r : Nat} (hr : r ≤ rows t)
    (hrows : rows t < Token.rowSpan) (h : k.encode (Token.make t r) = .ok v) :
    v < 256 ^ (k.width rows) := by
  have hpack := coded?_of_encode h
  rw [Token.tableNumber_make, Token.row_make,
    Nat.mod_eq_of_lt (Nat.lt_of_le_of_lt hr hrows)] at hpack
  exact pack?_lt_width hr hrows hpack

/-! ## Types -/

/-- Tokens of types have a compressed form. -/
theorem exists_encodeType (ht : t ∈ typeDefOrRef.tables) (htok : tok.table? = some t) :
    ∃ bs, tok.encodeType = .ok bs := by
  obtain ⟨v, hv⟩ := exists_encode_iff.mpr ⟨t, ht, htok⟩
  refine ⟨Compressed.lengthBytes v, ?_⟩
  simp only [Token.encodeType, hv, Bind.bind, Except.bind, Compressed.encode_eq,
    if_pos (encode_le_maxValue hv)]

/-! ## Rows that do not fit into a token -/

/-- The number of indexes that can be told apart as tokens. -/
def period (k : CodedKind) : Nat := k.tagSpan * Token.rowSpan

theorem lt_period_iff : v < k.period ↔ v / k.tagSpan < Token.rowSpan := by
  rw [period, Nat.div_lt_iff_lt_mul k.tagSpan_pos, Nat.mul_comm]

theorem period_le (k : CodedKind) : k.period ≤ 0x20000000 :=
  Nat.mul_le_mul_right Token.rowSpan k.tagSpan_le

/-- Within a period there are all tags, and for each of them all rows of a token. -/
theorem mod_period_eq_iff : v % k.period = w % k.period ↔
    v % k.tagSpan = w % k.tagSpan
      ∧ v / k.tagSpan % Token.rowSpan = w / k.tagSpan % Token.rowSpan := by
  constructor
  · intro h
    have htag := congrArg (· % k.tagSpan) h
    have hrow := congrArg (· / k.tagSpan) h
    simp only [period, Nat.mod_mul_right_mod, Nat.mod_mul_right_div_self] at htag hrow
    exact ⟨htag, hrow⟩
  · rintro ⟨htag, hrow⟩
    rw [period, Nat.mod_mul, Nat.mod_mul, htag, hrow]

/-- **Decoding sees an index modulo its period.** -/
theorem decode_eq_iff (hv : k.decode v = .ok tok) (hw : k.decode w = .ok tok') :
    tok = tok' ↔ v % k.period = w % k.period := by
  obtain ⟨t, htag, rfl⟩ := decode_ok hv
  obtain ⟨u, htag', rfl⟩ := decode_ok hw
  rw [mod_period_eq_iff, Token.make_eq_iff]
  refine and_congr_left fun _ => ⟨?_, fun h => ?_⟩
  · rintro rfl
    exact Option.some.inj (htag.symm.trans htag')
  · rw [h] at htag
    have hslot := (getElem?_slotTag? htag).symm.trans (getElem?_slotTag? htag')
    exact Option.some.inj (Option.some.inj hslot)

theorem decode_of_mod_eq (h : v % k.period = w % k.period) (hv : k.decode v = .ok tok) :
    k.decode w = .ok tok := by
  obtain ⟨t, htag, rfl⟩ := decode_ok hv
  obtain ⟨hsame, hrow⟩ := mod_period_eq_iff.mp h
  rw [decode, ← hsame, tableOf?_of_slotTag? htag]
  exact congrArg Except.ok (Token.make_eq_iff.mpr ⟨rfl, hrow.symm⟩)

/-- Every index that is decoded has another one of 32 bits beside it, some periods away. -/
theorem exists_alias (hv : k.decode v = .ok tok) :
    ∃ u < 0x100000000, u ≠ v ∧ k.decode u = .ok tok := by
  have hle := k.period_le
  have hpos : 0 < k.period := Nat.mul_pos k.tagSpan_pos (by decide)
  by_cases hsmall : v < k.period
  · refine ⟨v + k.period, by omega, by omega, decode_of_mod_eq ?_ hv⟩
    rw [Nat.add_mod_right]
  · have hmod := Nat.mod_lt v hpos
    refine ⟨v % k.period, by omega, by omega, decode_of_mod_eq ?_ hv⟩
    rw [Nat.mod_mod]

end CodedKind

/-- **The codecs of coded indexes agree.** -/
theorem coded_codecs_agree :
    (∀ (k : CodedKind) (t : TableId) (tok : Token), t ∈ k.tables → tok.table? = some t →
        ∃ v, k.encode tok = .ok v ∧ k.decode v = .ok tok
          ∧ Assemble.coded? k tok.tableNumber tok.row = some v)
      ∧ (∀ (k : CodedKind) (v : Nat), v / k.tagSpan < 0x1000000 →
          (k.Untabled (v % k.tagSpan) ∧ k.decode v = .error (k.tagFault v))
            ∨ ∃ tok, k.decode v = .ok tok ∧ k.encode tok = .ok v)
      ∧ (∀ (t : TableId) (tok : Token), t ∈ [.typeDef, .typeRef, .typeSpec] →
          tok.table? = some t → ∃ bs, tok.encodeType = .ok bs
            ∧ ∀ s, Token.decodeType (bs ++ s) = .ok (tok, bs.length))
      ∧ ∀ (k : CodedKind) (rows : TableId → Nat) (t : TableId) (r : Nat),
          (∀ u, rows u < 0x1000000) → t ∈ k.tables → r ≤ rows t →
          ∃ v, k.encode (Token.make t r) = .ok v ∧ v < 2 ^ (8 * k.width rows) := by
  refine ⟨fun k t tok ht htok => ?_, fun k v hv => ?_, fun t tok ht htok => ?_,
    fun k rows t r hrows ht hr => ?_⟩
  · obtain ⟨v, hv⟩ := CodedKind.exists_encode_iff.mpr ⟨t, ht, htok⟩
    exact ⟨v, hv, CodedKind.decode_encode hv, CodedKind.coded?_of_encode hv⟩
  · rcases CodedKind.decode_cases k v with hrefused | ⟨t, -, hok⟩
    · exact Or.inl hrefused
    · exact Or.inr ⟨_, hok, (CodedKind.encode_eq_ok_iff hv).mpr hok⟩
  · obtain ⟨bs, hbs⟩ := CodedKind.exists_encodeType ht htok
    exact ⟨bs, hbs, Token.decodeType_encodeType hbs⟩
  · obtain ⟨v, hv⟩ := CodedKind.exists_encode_iff.mpr ⟨t, ht, Token.table?_make t r⟩
    rw [← pow_256_eq]
    exact ⟨v, hv, CodedKind.encode_lt_width hr (hrows t) hv⟩

/-- A token of the last table that attributes may be attached to, a value with a reserved tag, the
token of a type in three bytes, and the widest kind one row below its threshold. -/
theorem coded_codecs_agree_attachable :
    (∃ v, CodedKind.hasCustomAttribute.encode (Token.make .methodSpec 7) = .ok v
        ∧ CodedKind.hasCustomAttribute.decode v = .ok (Token.make .methodSpec 7)
        ∧ Assemble.coded? .hasCustomAttribute (Token.make .methodSpec 7).tableNumber
            (Token.make .methodSpec 7).row = some v)
      ∧ (CodedKind.customAttributeType.Untabled (12 % CodedKind.customAttributeType.tagSpan)
            ∧ CodedKind.customAttributeType.decode 12
              = .error (CodedKind.customAttributeType.tagFault 12)
          ∨ ∃ tok, CodedKind.customAttributeType.decode 12 = .ok tok
            ∧ CodedKind.customAttributeType.encode tok = .ok 12)
      ∧ (∃ bs, (Token.make .typeSpec 5000).encodeType = .ok bs
          ∧ ∀ s, Token.decodeType (bs ++ s) = .ok (Token.make .typeSpec 5000, bs.length))
      ∧ ∃ v, CodedKind.hasCustomAttribute.encode (Token.make .file 2047) = .ok v
          ∧ v < 2 ^ (8 * CodedKind.hasCustomAttribute.width fun _ => 2047) :=
  ⟨coded_codecs_agree.1 .hasCustomAttribute .methodSpec _ (by decide) (Token.table?_make _ _),
    coded_codecs_agree.2.1 .customAttributeType 12 (by decide),
    coded_codecs_agree.2.2.1 .typeSpec _ (by decide) (Token.table?_make _ _),
    coded_codecs_agree.2.2.2 .hasCustomAttribute (fun _ => 2047) .file 2047 (fun _ => by decide)
      (by decide) (Nat.le_refl _)⟩

/-- **Tokens are the residues of coded indexes.** Indexes whose rows fit into a token are told
apart; every index that is decoded shares its token with another one of 32 bits. -/
theorem tokens_are_residues (k : CodedKind) {v w : Nat} {tok tok' : Token}
    (hv : k.decode v = .ok tok) (hw : k.decode w = .ok tok') :
    (tok = tok' ↔ v % (k.tagSpan * 0x1000000) = w % (k.tagSpan * 0x1000000))
      ∧ (v / k.tagSpan < 0x1000000 → w / k.tagSpan < 0x1000000 → (tok = tok' ↔ v = w))
      ∧ ∃ u < 0x100000000, u ≠ v ∧ k.decode u = .ok tok := by
  have hiff := CodedKind.decode_eq_iff hv hw
  refine ⟨hiff, fun hrow hrow' => ?_, CodedKind.exists_alias hv⟩
  rw [hiff]
  -- Both are below the period, so they are their own residues.
  have hv := Nat.mod_eq_of_lt (CodedKind.lt_period_iff.mpr hrow)
  have hw := Nat.mod_eq_of_lt (CodedKind.lt_period_iff.mpr hrow')
  rw [hv, hw]

theorem tokens_are_residues_wideRow :
    (Token.make .typeDef 1 = Token.make .typeDef 2
        ↔ 0x04000004 % (CodedKind.typeDefOrRef.tagSpan * 0x1000000)
          = 8 % (CodedKind.typeDefOrRef.tagSpan * 0x1000000))
      ∧ (Token.make .typeDef 0xFFFFFF = Token.make .typeDef 2 ↔ 0x03FFFFFC = 8)
      ∧ ∃ u < 0x100000000, u ≠ 0x04000004
          ∧ CodedKind.typeDefOrRef.decode u = .ok (Token.make .typeDef 1) := by
  have hwide : CodedKind.typeDefOrRef.decode 0x04000004 = .ok (Token.make .typeDef 1) := rfl
  have hnext : CodedKind.typeDefOrRef.decode 8 = .ok (Token.make .typeDef 2) := rfl
  have hlast : CodedKind.typeDefOrRef.decode 0x03FFFFFC = .ok (Token.make .typeDef 0xFFFFFF) := rfl
  obtain ⟨hiff, -, halias⟩ := tokens_are_residues .typeDefOrRef hwide hnext
  obtain ⟨-, hnarrow, -⟩ := tokens_are_residues .typeDefOrRef hlast hnext
  exact ⟨hiff, hnarrow (by decide) (by decide), halias⟩

/-- Different indexes of 32 bits are not always different tokens. -/
theorem decode_not_injective : ¬ ∀ (k : CodedKind) (v w : Nat) (tok : Token), v < 0x100000000 →
    w < 0x100000000 → k.decode v = .ok tok → k.decode w = .ok tok → v = w := by
  intro h
  -- Row 0x1000001 of a type is read as its row 1.
  have hwide : CodedKind.typeDefOrRef.decode 0x04000004 = .ok (Token.make .typeDef 1) := rfl
  have hfirst : CodedKind.typeDefOrRef.decode 0x00000004 = .ok (Token.make .typeDef 1) := rfl
  have hsame := h .typeDefOrRef _ _ _ (by decide) (by decide) hwide hfirst
  exact absurd hsame (by decide)

end ManagedImage
