/-
What a member token is taken for, and what its signature decodes to.

Three places look at the signature of a member reference, each in its own way: the
classification by the low four bits of its first byte, the field decoder by a lead byte,
the method decoder by a calling convention. They look at the same cell of the same row
(`signatureBlob_ok`), the bits of the two forms are disjoint, and a decoder that succeeds
has seen those of its form (`memberRefLead?_of_accepts`). So a token whose decoder
succeeds is of its kind, and an operand that may be of any kind is resolved by the decoder
that succeeds on it.
-/
import ManagedImage.Code.Resolve
import ManagedImage.Proofs.Signature.Members
import ManagedImage.Proofs.Assemble.Lossless

set_option autoImplicit false

namespace ManagedImage

namespace Image

variable {img : Image} {tok : Token}

/-! ## One cell for all -/

/-- A signature is found in the blob heap, where the cell of an existing row points. -/
theorem signatureBlob_ok {t : TableId} {col : Nat} {blob : List UInt8}
    (h : img.signatureBlob tok t col = .ok blob) :
    tok.table? = some t ∧ (img.table t).hasRow tok.row = true
      ∧ ∃ sig, img.blobs.get ((img.table t).cell tok.row col) = .ok sig
        ∧ sig.data.toList = blob := by
  unfold signatureBlob at h
  split at h
  · cases h
  · next htable =>
    obtain ⟨index, hindex, h⟩ := Except.bind_ok h
    obtain ⟨sig, hsig, rfl⟩ := Except.map_ok h
    unfold Table.column at hindex
    split at hindex
    · cases hindex
    · next hrow =>
      split at hindex
      · cases hindex
      · cases hindex
        refine ⟨not_not.mp htable, by simpa using hrow, sig, ?_, rfl⟩
        rw [Int.toNat_natCast] at hsig
        exact hsig

/-- The signature of a row that was read. -/
theorem signatureBlob_of_row {t : TableId} {row v : Nat} {cells : List Nat} {data : List UInt8}
    (hrow : (img.table t).row row = .ok cells) (hlow : row < Token.rowSpan) (col : Nat)
    (hv : cells[col]? = some v) (hblob : img.blobs.get v = .ok data.toByteArray) :
    img.signatureBlob (Token.make t row) t col = .ok data := by
  obtain ⟨hhas, hcell⟩ := Table.cell_of_row hrow
  have hin : ¬ ((col : Int) < 0 ∨ (img.table t).layout.columns.size ≤ (col : Int).toNat) := by
    have hlength : cells.length = (img.table t).layout.columns.size := by
      rw [Table.row, if_pos hhas] at hrow
      rw [← Except.ok.inj hrow, Table.cells, List.length_map, List.length_range]
    have hcol := (List.getElem?_eq_some_iff.mp hv).1
    rw [Int.toNat_natCast]
    omega
  have hcolumn : (img.table t).column row (col : Int) = .ok v := by
    rw [Table.column, hhas, if_neg (by simp), if_neg hin, Int.toNat_natCast, hcell col v hv]
  rw [signatureBlob, if_neg (by simp), Token.row_make, Nat.mod_eq_of_lt hlow, hcolumn]
  simp only [bind, Except.bind, hblob]
  rw [List.data_toByteArray, List.toList_toArray]
  rfl

/-- The classification reads the first byte of the same blob. -/
theorem memberRefLead?_of_blob {b : UInt8} {rest : List UInt8}
    (h : img.signatureBlob tok .memberRef 2 = .ok (b :: rest)) :
    img.memberRefLead? tok = some (b.toNat % 16) := by
  obtain ⟨-, hrow, sig, hsig, hdata⟩ := signatureBlob_ok h
  have hsize : sig.size = rest.length + 1 := by
    rw [← ByteArray.size_data, ← Array.length_toList, hdata, List.length_cons]
  have hfirst : byteAt sig 0 = b := by
    have hget : sig.data.toList[0]? = some b := by rw [hdata, List.getElem?_cons_zero]
    obtain ⟨hlt, hget⟩ := List.getElem?_eq_some_iff.mp hget
    rw [byteAt, dif_pos (by omega)]
    exact hget
  unfold memberRefLead?
  simp only [hrow, if_true, hsig, hsize, Nat.succ_ne_zero, if_false, hfirst]

/-- A decoder of member signatures that accepts the blob of a member reference leaves one of its
own lead nibbles to the classification. -/
theorem memberRefLead?_of_accepts {blob : List UInt8} {f : MemberForm}
    (hblob : img.signatureBlob tok .memberRef 2 = .ok blob) (h : f.Accepts blob) :
    ∃ n ∈ f.nibbles, img.memberRefLead? tok = some n := by
  obtain ⟨b, rest, rfl, hmem⟩ := MemberForm.accepts_lead h
  exact ⟨_, hmem, memberRefLead?_of_blob hblob⟩

/-! ## What each predicate asks for -/

theorem isField_iff : img.isField tok = true ↔
    tok.table? = some .field
      ∨ tok.table? = some .memberRef ∧ img.memberRefLead? tok = some fieldLead := by
  unfold isField
  split
  · next h => simp [h]
  · next h => simp [h]
  · next hfield hmember =>
    simp only [Bool.false_eq_true, false_iff]
    rintro (h | ⟨h, -⟩)
    · exact hfield h
    · exact hmember h

theorem isMethod_iff : img.isMethod tok = true ↔
    tok.table? = some .methodDef ∨ tok.table? = some .methodSpec
      ∨ tok.table? = some .memberRef ∧ ∃ n, img.memberRefLead? tok = some n ∧ n ≠ fieldLead := by
  unfold isMethod
  split
  · next h => simp [h]
  · next h => simp [h]
  · next h => simp [h, Option.any_eq_true]
  · next hdef hspec hmember =>
    simp only [Bool.false_eq_true, false_iff]
    rintro (h | h | ⟨h, -⟩)
    · exact hdef h
    · exact hspec h
    · exact hmember h

/-- No token is taken for a field and for a method. -/
theorem not_isField_of_isMethod (h : img.isMethod tok = true) : img.isField tok = false := by
  rw [Bool.eq_false_iff, ne_eq, isField_iff]
  rcases isMethod_iff.mp h with htable | htable | ⟨htable, n, hlead, hn⟩ <;> rw [htable]
  · simp
  · simp
  · rw [hlead]
    simpa using hn

/-! ## What each decoder has seen -/

theorem isField_of_fieldType {t : TypeSig} (h : img.fieldType tok = .ok t) :
    img.isField tok = true := by
  rw [isField_iff]
  unfold fieldType at h
  split at h
  · next htable => exact .inl htable
  · next htable =>
    obtain ⟨blob, hblob, h⟩ := Except.bind_ok h
    obtain ⟨n, hn, hlead⟩ := memberRefLead?_of_accepts (f := .field) hblob ⟨t, h⟩
    obtain rfl := List.mem_singleton.mp hn
    exact .inr ⟨htable, hlead⟩
  · cases h

theorem isMethod_of_methodSig {m : MethodSig} (h : img.methodSig tok = .ok m) :
    img.isMethod tok = true := by
  rw [isMethod_iff]
  unfold methodSig at h
  split at h
  · next htable => exact .inr (.inl htable)
  · unfold ownMethodSig at h
    split at h
    · next htable => exact .inl htable
    · next htable =>
      obtain ⟨blob, hblob, h⟩ := Except.bind_ok h
      split at h
      · cases h
      · obtain ⟨n, hn, hlead⟩ := memberRefLead?_of_accepts (f := .method) hblob ⟨.memberRef, m, h⟩
        refine .inr (.inr ⟨htable, n, hlead, ?_⟩)
        rintro rfl
        exact absurd hn (by decide)
    · cases h

/-- The tables of types hold no members. -/
theorem unclassified_of_typeOf {t : TypeSig} (h : img.typeOf tok = .ok t) :
    img.isMethod tok = false ∧ img.isField tok = false := by
  have htable : tok.table? = some .typeDef ∨ tok.table? = some .typeRef
      ∨ tok.table? = some .typeSpec := by
    unfold typeOf at h
    split at h
    · next htable => exact .inl htable
    · next htable => exact .inr (.inl htable)
    · next htable => exact .inr (.inr htable)
    · cases h
  simp only [Bool.eq_false_iff, ne_eq, isMethod_iff, isField_iff]
  rcases htable with htable | htable | htable <;> simp [htable]

end Image

/-! ## Operands of any kind -/

/-- An operand that may be of any kind is resolved as what its token is taken for. -/
theorem Instruction.resolve_token {i : Instruction} (h : i.op.operand = .token) (img : Image) :
    i.resolve img = if img.isMethod i.operand.toToken then img.methodReferent i.operand.toToken
      else if img.isField i.operand.toToken then img.fieldReferent i.operand.toToken
      else .type <$> img.typeOf i.operand.toToken := by
  have htoken : i.tokenOperand = .ok i.operand.toToken := by
    rw [Instruction.tokenOperand, h]
    rfl
  rw [Instruction.resolve, htoken, h]
  rfl

/-- **A member token is taken for what its signature decodes to.** A token with the type of a field
is taken for a field, one with the signature of a method for a method, and none for both. So an
operand that may be of any kind is resolved as a method, a field or a type if its token decodes as
one; for a member, only its name may be missing then. -/
theorem Image.classification_matches_decoding (img : Image) (tok : Token) :
    (∀ t, img.fieldType tok = .ok t → img.isField tok = true ∧ img.isMethod tok = false)
      ∧ (∀ m, img.methodSig tok = .ok m → img.isMethod tok = true ∧ img.isField tok = false)
      ∧ ¬ (img.isField tok = true ∧ img.isMethod tok = true)
      ∧ ∀ i : Instruction, i.op.operand = .token → i.operand.toToken = tok →
        (∀ m, img.methodSig tok = .ok m →
            i.resolve img = .method m <$> img.fullMemberName tok)
          ∧ (∀ t, img.fieldType tok = .ok t →
            i.resolve img = .field t <$> img.fullMemberName tok)
          ∧ ∀ t, img.typeOf tok = .ok t → i.resolve img = .ok (.type t) := by
  have hfield : ∀ t, img.fieldType tok = .ok t →
      img.isField tok = true ∧ img.isMethod tok = false := by
    intro t ht
    have hisField := isField_of_fieldType ht
    refine ⟨hisField, Bool.eq_false_iff.mpr fun hisMethod => ?_⟩
    rw [not_isField_of_isMethod hisMethod] at hisField
    cases hisField
  have hmethod : ∀ m, img.methodSig tok = .ok m →
      img.isMethod tok = true ∧ img.isField tok = false := fun m hm =>
    ⟨isMethod_of_methodSig hm, not_isField_of_isMethod (isMethod_of_methodSig hm)⟩
  refine ⟨hfield, hmethod, ?_, ?_⟩
  · rintro ⟨hisField, hisMethod⟩
    rw [not_isField_of_isMethod hisMethod] at hisField
    cases hisField
  · rintro i hop rfl
    refine ⟨fun m hm => ?_, fun t ht => ?_, fun t ht => ?_⟩
    · rw [Instruction.resolve_token hop, if_pos (hmethod m hm).1, methodReferent, hm]
      rfl
    · rw [Instruction.resolve_token hop, (hfield t ht).2, (hfield t ht).1, fieldReferent, ht]
      rfl
    · obtain ⟨hisMethod, hisField⟩ := unclassified_of_typeOf ht
      rw [Instruction.resolve_token hop, hisMethod, hisField, ht]
      rfl

/-- A field and a constructor of other types, referred to without a parent. -/
def twoMembers : List Assemble.Step :=
  [.row .memberRef [.number 0, .string "f", .blob [0x06, 0x08]],
    .row .memberRef [.number 0, .string ".ctor", .blob [0x20, 0x00, 0x01]]]

open Assemble in
theorem Image.classification_matches_decoding_twoMembers :
    ∃ (results : List Int) (b : Builder) (img : Image), build twoMembers = .ok (results, b)
      ∧ Image.parse b.bytes = .ok img
      ∧ Instruction.resolve ⟨0, .ldtoken, 5, .token (Token.make .memberRef 1)⟩ img
        = .ok (.field (.prim .i4) "f")
      ∧ img.isMethod (Token.make .memberRef 2) = true := by
  have hproper : ∀ s ∈ twoMembers, s.Proper := by
    simp [twoMembers, Step.Proper, TableId.columns]
  obtain ⟨results, b, img, hbuild, hparse, ⟨hfirst, hsecond⟩, hread, hheaps⟩ :=
    reproduces_of_build hproper
      (p := fun b => (b.rows.get .memberRef).explicit[0]? = some [0, 1, 1]
        ∧ (b.rows.get .memberRef).explicit[1]? = some [0, 3, 4]) (by decide +kernel)
  have hfield : img.fieldType (Token.make .memberRef 1) = .ok (.prim .i4) := by
    have hblob := signatureBlob_of_row (hread.row .memberRef 0 _ hfirst) (by decide) 2 rfl
      (hheaps.blob [0x06, 0x08] 1 (by decide +kernel))
    rw [fieldType, Token.table?_make, hblob]
    rfl
  obtain ⟨m, hmethod⟩ : ∃ m, img.methodSig (Token.make .memberRef 2) = .ok m := by
    have hblob := signatureBlob_of_row (hread.row .memberRef 1 _ hsecond) (by decide) 2 rfl
      (hheaps.blob [0x20, 0x00, 0x01] 4 (by decide +kernel))
    rw [methodSig, Token.table?_make, if_neg (by decide), ownMethodSig, Token.table?_make, hblob]
    exact ⟨_, rfl⟩
  have hname : img.fullMemberName (Token.make .memberRef 1) = .ok "f" := by
    obtain ⟨hhas, hcell⟩ := Table.cell_of_row (hread.row .memberRef 0 _ hfirst)
    have hrow : (Token.make .memberRef 1).row = 1 := by decide
    have hown : img.ownMemberName (Token.make .memberRef 1) = .ok "f" := by
      have hexists : img.hasRow (Token.make .memberRef 1) = true := by
        rw [hasRow, Token.table?_make, hrow]
        exact hhas
      rw [ownMemberName, hexists, Token.table?_make, hrow]
      simp only [memberNameColumn?, hcell 1 1 rfl]
      exact hheaps.string "f" 1 (by decide +kernel) (by decide +kernel)
    have hparent : img.memberParent (Token.make .memberRef 1) = .ok (Token.make .typeDef 0) := by
      rw [memberParent, Token.table?_make, if_pos rfl, hrow, hcell 0 0 rfl]
      rfl
    have hspec : ¬ (img.hasRow (Token.make .memberRef 1)
        && decide ((Token.make .memberRef 1).table? = some .methodSpec)) = true := by simp
    rw [fullMemberName, if_neg hspec, ownFullMemberName, hown, hparent]
    rfl
  obtain ⟨-, -, -, hresolve⟩ := classification_matches_decoding img (Token.make .memberRef 1)
  obtain ⟨-, hisMethod, -, -⟩ := classification_matches_decoding img (Token.make .memberRef 2)
  refine ⟨results, b, img, hbuild, hparse, ?_, (hisMethod m hmethod).1⟩
  rw [(hresolve ⟨0, .ldtoken, 5, .token (Token.make .memberRef 1)⟩ rfl rfl).2.1 _ hfield, hname]
  rfl

end ManagedImage
