/-
Values of attributes read back from their bytes.

A value is written by its type, and read by it: by the type of a parameter, or by the type that
stands in front of a named argument. Two marks have to be told from what they look like: the null
string from the length of a string, which never starts with that byte, and the null array from the
length of an array. An array is refused unless a byte follows for each element, which is met by what
is written, since no value is empty (`valueBytes_ne_nil`).

`TypeSig.Admits` says which values a type has; every one of them has its bytes. An array
of `Attribute.nullLength` elements or more is no value of any type, as its length cannot be written.
`TypeSig.Nameable` says which types may stand in front of a named argument: those that are read there
and no others (`nameable_of_namedType`).
-/
import ManagedImage.Signature.Attribute
import ManagedImage.Proofs.Bytes.Signs
import ManagedImage.Proofs.Metadata.Heaps
import ManagedImage.Proofs.Metadata.Nesting
import ManagedImage.Proofs.Signature.Members

set_option autoImplicit false

namespace ManagedImage

open Compressed (fitsSigned)

/-! ## The types of arguments and their values -/

namespace Primitive

/-- The number of bytes of a signed integer. -/
def signedWidth? : Primitive → Option Nat
  | .i1 => some 1
  | .i2 => some 2
  | .i4 => some 4
  | .i8 => some 8
  | _ => none

/-- The number of bytes of an unsigned integer. -/
def unsignedWidth? : Primitive → Option Nat
  | .u1 => some 1
  | .u2 => some 2
  | .u4 => some 4
  | .u8 => some 8
  | _ => none

/-- The number of bytes of a floating-point number. -/
def floatWidth? : Primitive → Option Nat
  | .r4 => some 4
  | .r8 => some 8
  | _ => none

end Primitive

/-- The class that a type names, with or without generic arguments. -/
def TypeSig.class? : TypeSig → Option Token
  | .named tok false | .inst tok false _ => some tok
  | _ => none

/-- The type is that of strings, or that of types, which are given by name: by its own tag or as the
class `System.Type`. -/
inductive TypeSig.HoldsText (typeName : Token → Except Fault Text) : TypeSig → Prop
  | string : HoldsText typeName (.prim .string)
  | systemType : HoldsText typeName (.prim .systemType)
  | named {t : TypeSig} {tok : Token} : t.class? = some tok → typeName tok = .ok "System.Type" →
      HoldsText typeName t

/-- The value is one of a type that an argument may have: a truth value, a character, a number, a
string or the name of a type, or an array of these to any depth. Modifiers do not matter. -/
inductive TypeSig.Admits (typeName : Token → Except Fault Text) : TypeSig → AttributeValue → Prop
  | modified {required : Bool} {tok : Token} {t : TypeSig} {v : AttributeValue} :
      Admits typeName t v → Admits typeName (.modified required tok t) v
  | pinned {t : TypeSig} {v : AttributeValue} :
      Admits typeName t v → Admits typeName (.pinned t) v
  | bool (b : Bool) : Admits typeName (.prim .boolean) (.bool b)
  | char {unit : Nat} : unit < 0x10000 → Admits typeName (.prim .char) (.char unit)
  | signed {p : Primitive} {width : Nat} {v : Int} : p.signedWidth? = some width →
      fitsSigned (8 * width - 1) v = true → Admits typeName (.prim p) (.signed width v)
  | unsigned {p : Primitive} {width v : Nat} : p.unsignedWidth? = some width →
      v < 256 ^ width → Admits typeName (.prim p) (.unsigned width v)
  | float {p : Primitive} {width bits : Nat} : p.floatWidth? = some width →
      bits < 256 ^ width → Admits typeName (.prim p) (.float width bits)
  | text {t : TypeSig} {s : Text} : t.HoldsText typeName →
      s.toList.length ≤ Compressed.maxValue → Admits typeName t (.string s)
  | nullText {t : TypeSig} : t.HoldsText typeName → Admits typeName t .null
  | array {t : TypeSig} {vs : List AttributeValue} : vs.length < Attribute.nullLength →
      (∀ v ∈ vs, Admits typeName t v) → Admits typeName (.szArray t) (.array vs)
  | nullArray {t : TypeSig} : Admits typeName (.szArray t) .null

/-- The type may stand in front of a named argument. -/
inductive TypeSig.Nameable : TypeSig → Prop
  | prim {p : Primitive} : Attribute.mayBeNamed p = true → Nameable (.prim p)
  | szArray {t : TypeSig} : Nameable t → Nameable (.szArray t)

/-- A named argument has a type that may stand in front of one, and a value of that type. -/
structure NamedArgument.Proper (typeName : Token → Except Fault Text) (a : NamedArgument) :
    Prop where
  type : a.type.Nameable
  name : a.name.toList.length ≤ Compressed.maxValue
  value : a.type.Admits typeName a.value

namespace Attribute

open Decode

/-! ## What is written -/

/-- The bytes of a string. -/
def stringBytes (s : Text) : List UInt8 := Compressed.lengthBytes s.toList.length ++ s.toList

/-- The bytes of a value that is not an array. Null is a null string here. -/
def scalarBytes : AttributeValue → List UInt8
  | .null => [0xFF]
  | .bool b => [if b then 1 else 0]
  | .char unit => leBytes 2 unit
  | .signed width v => leBytes width (twosComplement v)
  | .unsigned width v => leBytes width v
  | .float width bits => leBytes width bits
  | .string s => stringBytes s
  | .array _ => []

/-- The bytes of a value of a type. -/
def valueBytes : TypeSig → AttributeValue → List UInt8
  | .modified _ _ t, v => valueBytes t v
  | .pinned t, v => valueBytes t v
  | .szArray t, .array vs => leBytes 4 vs.length ++ (vs.map (valueBytes t)).flatten
  | .szArray _, _ => leBytes 4 nullLength
  | _, v => scalarBytes v

/-- The bytes of a type in front of a named argument. -/
def typeBytes : TypeSig → List UInt8
  | .szArray t => UInt8.ofNat Element.szArray :: typeBytes t
  | t => [UInt8.ofNat t.kind]

/-- The bytes of a named argument. -/
def namedBytes (a : NamedArgument) : List UInt8 :=
  UInt8.ofNat (if a.isProperty then propertyTag else fieldTag)
    :: (typeBytes a.type ++ (stringBytes a.name ++ valueBytes a.type a.value))

/-- The bytes of all arguments: the values of the parameters, then the named ones after their
count. -/
def argumentBytes (types : List TypeSig) (args : AttributeArguments) : List UInt8 :=
  leBytes 2 mark ++ ((List.zipWith valueBytes types args.fixed).flatten
    ++ (leBytes 2 args.named.length ++ (args.named.map namedBytes).flatten))

end Attribute

/-! ## Steps -/

namespace Decode

variable {α β : Type} {n : Nat} {bs : List UInt8} {a : α}

theorem reads_word {width v : Nat} (what : String) (h : v < 256 ^ width) :
    Reads 0 (word width what) (leBytes width v) v := by
  intro offset s _
  have hlen : (leBytes width v).length = width := length_leBytes width v
  have hroom : width ≤ (leBytes width v ++ s).length := by
    rw [List.length_append]
    omega
  have htake : (leBytes width v ++ s).take width = leBytes width v := List.take_left' hlen
  have hdrop : (leBytes width v ++ s).drop width = s := List.drop_left' hlen
  simp only [word, EStateM.bind_apply, EStateM.get_apply, if_pos hroom, EStateM.set_apply,
    Decoder.advance, htake, hdrop, leNat_leBytes, Nat.mod_eq_of_lt h, hlen]
  rfl

theorem reads_bytes (bs : List UInt8) (what : String) : Reads 0 (bytes bs.length what) bs bs := by
  intro offset s _
  have hroom : bs.length ≤ (bs ++ s).length := by
    rw [List.length_append]
    omega
  simp only [bytes, EStateM.bind_apply, EStateM.get_apply, if_pos hroom, EStateM.set_apply,
    Decoder.advance, List.take_left, List.drop_left]
  rfl

/-- A byte that is looked at is still to be read. -/
theorem Reads.after_peek {f : UInt8 → Decode α} {b : UInt8} (h : Reads n (f b) (b :: bs) a)
    (what : String) : Reads n (peek what >>= f) (b :: bs) a := h

/-- Of the bytes that are left, these are some. -/
theorem Reads.of_remaining {f : Nat → Decode α}
    (h : ∀ left, bs.length ≤ left → Reads n (f left) bs a) : Reads n (remaining >>= f) bs a := by
  intro offset s hs
  refine h (bs ++ s).length ?_ offset s hs
  rw [List.length_append]
  omega

end Decode

/-! ## Values -/

namespace Attribute

open Decode

/-- **A string is told from null**: no length starts with the byte of the null string. -/
theorem reads_string {s : Text} (h : s.toList.length ≤ Compressed.maxValue) :
    Reads 0 stringOrNull (stringBytes s) (some s) := by
  have hencode : Compressed.encode s.toList.length
      = .ok (Compressed.lengthBytes s.toList.length) := by
    rw [Compressed.encode_eq, if_pos h]
  cases hlength : Compressed.lengthBytes s.toList.length with
  | nil => exact absurd hlength (Compressed.lengthBytes_ne_nil _)
  | cons b rest =>
    rw [hlength] at hencode
    -- Decoding would take that byte for the null mark, and it finds the length.
    have hnot : b ≠ 0xFF := by
      rintro rfl
      have hdecode := Compressed.decode_encode hencode []
      cases hdecode
    rw [stringBytes, hlength]
    unfold stringOrNull
    refine Reads.after_peek ?_ _
    rw [if_neg hnot]
    refine (reads_compressed _ hencode).bind ?_ (Nat.zero_le _)
    have hbytes := (reads_bytes s.toList "string").map fun bs => some (Text.ofList bs)
    rwa [Text.ofList_toList] at hbytes

theorem reads_stringValue {s : Text} (h : s.toList.length ≤ Compressed.maxValue) :
    Reads 0 stringValue (stringBytes s) (.string s) := by
  rw [← List.append_nil (stringBytes s)]
  unfold stringValue
  exact (reads_string h).bind (reads_pure _) (Nat.zero_le _)

theorem reads_nullValue : Reads 0 stringValue [0xFF] .null := fun _ _ _ => rfl

section Values

variable {typeName : Token → Except Fault Text}

/-- A type that holds text is read as a string. -/
theorem value_of_holdsText {t : TypeSig} (h : t.HoldsText typeName) (shown : Text) {bs : List UInt8}
    {v : AttributeValue} (hread : Reads 0 stringValue bs v) :
    Reads 0 (value typeName shown t) bs v := by
  cases h with
  | string => exact hread
  | systemType => exact hread
  | named hclass hname =>
    have hcase : ∀ tok, typeName tok = .ok "System.Type" →
        Reads 0 (classValue typeName tok) bs v := by
      intro tok hname
      unfold classValue
      refine Reads.of_offset fun at_ => ?_
      rw [hname]
      exact hread
    match t, hclass with
    | .named tok false, rfl => exact hcase _ hname
    | .inst tok false args, rfl => exact hcase _ hname

theorem scalar_of_holdsText {t : TypeSig} (h : t.HoldsText typeName) (v : AttributeValue) :
    valueBytes t v = scalarBytes v := by
  cases h with
  | string => rfl
  | systemType => rfl
  | named hclass hname =>
    match t, hclass with
    | .named tok false, rfl => rfl
    | .inst tok false args, rfl => rfl

theorem primitive_signed {p : Primitive} {width : Nat} (h : p.signedWidth? = some width) :
    primitive p = signedValue width ∧ (width = 1 ∨ width = 2 ∨ width = 4 ∨ width = 8) := by
  cases p <;> cases h <;> exact ⟨rfl, by decide⟩

theorem primitive_unsigned {p : Primitive} {width : Nat} (h : p.unsignedWidth? = some width) :
    primitive p = unsignedValue width ∧ (width = 1 ∨ width = 2 ∨ width = 4 ∨ width = 8) := by
  cases p <;> cases h <;> exact ⟨rfl, by decide⟩

theorem primitive_float {p : Primitive} {width : Nat} (h : p.floatWidth? = some width) :
    primitive p = floatValue width ∧ (width = 4 ∨ width = 8) := by
  cases p <;> cases h <;> exact ⟨rfl, by decide⟩

/-- **A number is read back**, whatever its sign. -/
theorem reads_signedValue {width : Nat} {v : Int}
    (hwidth : width = 1 ∨ width = 2 ∨ width = 4 ∨ width = 8)
    (h : fitsSigned (8 * width - 1) v = true) :
    Reads 0 (signedValue width) (leBytes width (twosComplement v)) (.signed width v) := by
  have hlt : twosComplement v % 256 ^ width < 256 ^ width :=
    Nat.mod_lt _ (Nat.pow_pos (by decide))
  have hread := (reads_word "attribute argument" hlt).map fun n =>
    AttributeValue.signed width (signedWord (8 * width) n)
  rw [leBytes_mod, pow_256_eq, signedWord_twosComplement (by omega) (by omega) h] at hread
  exact hread

theorem reads_unsignedValue {width v : Nat} (h : v < 256 ^ width) :
    Reads 0 (unsignedValue width) (leBytes width v) (.unsigned width v) :=
  (reads_word "attribute argument" h).map _

theorem reads_floatValue {width bits : Nat} (h : bits < 256 ^ width) :
    Reads 0 (floatValue width) (leBytes width bits) (.float width bits) :=
  (reads_word "attribute argument" h).map _

theorem reads_bool (b : Bool) :
    Reads 0 (primitive .boolean) [if b then 1 else 0] (.bool b) := by
  cases b <;> exact fun _ _ _ => rfl

theorem reads_char {unit : Nat} (h : unit < 0x10000) :
    Reads 0 (primitive .char) (leBytes 2 unit) (.char unit) := by
  have hlt : unit < 256 ^ 2 := h
  exact (reads_word "attribute argument" hlt).map _

theorem leBytes_ne_nil {width v : Nat} (h : 0 < width) : leBytes width v ≠ [] := by
  apply List.ne_nil_of_length_pos
  rwa [length_leBytes]

/-- **No value is empty**, so that an array has a byte for each of its elements. -/
theorem valueBytes_ne_nil {t : TypeSig} {v : AttributeValue} (h : t.Admits typeName v) :
    valueBytes t v ≠ [] := by
  induction h with
  | modified _ ih => exact ih
  | pinned _ ih => exact ih
  | bool b => exact List.cons_ne_nil _ _
  | char => exact leBytes_ne_nil (by decide)
  | signed hp =>
    obtain ⟨-, hwidth⟩ := primitive_signed hp
    exact leBytes_ne_nil (by omega)
  | unsigned hp =>
    obtain ⟨-, hwidth⟩ := primitive_unsigned hp
    exact leBytes_ne_nil (by omega)
  | float hp =>
    obtain ⟨-, hwidth⟩ := primitive_float hp
    exact leBytes_ne_nil (by omega)
  | text ht =>
    rw [scalar_of_holdsText ht]
    exact List.append_ne_nil_of_left_ne_nil (Compressed.lengthBytes_ne_nil _) _
  | nullText ht =>
    rw [scalar_of_holdsText ht]
    exact List.cons_ne_nil _ _
  | array =>
    exact List.append_ne_nil_of_left_ne_nil (leBytes_ne_nil (by decide)) _
  | nullArray => exact leBytes_ne_nil (by decide)

/-- **An array is read back**: its length is not that of a null array, and a byte follows for each
element. -/
theorem reads_arrayValue {elem : Decode AttributeValue} {pieces : List (List UInt8)}
    {vs : List AttributeValue} (hlength : vs.length < nullLength)
    (h : List.Forall₂ (Reads 0 elem) pieces vs) (hne : ∀ c ∈ pieces, c ≠ []) :
    Reads 0 (arrayValue elem) (leBytes 4 vs.length ++ pieces.flatten) (.array vs) := by
  have hlt : vs.length < 256 ^ 4 := Nat.lt_trans hlength (by decide)
  -- Every piece has a byte, so the guard lets the length pass whatever follows.
  have hcount := length_le_flatten hne
  rw [h.length_eq] at hcount
  unfold arrayValue
  refine Reads.of_offset fun at_ => ?_
  refine (reads_word _ hlt).bind ?_ (Nat.zero_le _)
  rw [if_neg (Nat.ne_of_lt hlength)]
  refine Reads.of_remaining fun left hleft => ?_
  rw [if_neg (Nat.not_lt.mpr (Nat.le_trans hcount hleft))]
  exact (reads_times h).map _

theorem reads_nullArray (elem : Decode AttributeValue) :
    Reads 0 (arrayValue elem) (leBytes 4 nullLength) .null := by
  have hlt : nullLength < 256 ^ 4 := by decide
  rw [← List.append_nil (leBytes 4 nullLength)]
  unfold arrayValue
  refine Reads.of_offset fun at_ => ?_
  refine (reads_word _ hlt).bind ?_ (Nat.zero_le _)
  rw [if_pos rfl]
  exact reads_pure _

/-- **A value is read back by its type**, by induction on the value: an array reads its elements by
the type of the elements. -/
theorem reads_value {t : TypeSig} {v : AttributeValue} (h : t.Admits typeName v) :
    ∀ shown, Reads 0 (value typeName shown t) (valueBytes t v) v := by
  induction h with
  | modified _ ih => exact ih
  | pinned _ ih => exact ih
  | bool b => exact fun _ => reads_bool b
  | char hunit => exact fun _ => reads_char hunit
  | signed hp hv =>
    intro shown
    -- The value is read in the width of its primitive, which has its sign.
    obtain ⟨hprimitive, hwidth⟩ := primitive_signed hp
    have hread := reads_signedValue hwidth hv
    rwa [← hprimitive] at hread
  | unsigned hp hv =>
    intro shown
    have hread := reads_unsignedValue hv
    rwa [← (primitive_unsigned hp).1] at hread
  | float hp hbits =>
    intro shown
    have hread := reads_floatValue hbits
    rwa [← (primitive_float hp).1] at hread
  | text ht hlength =>
    intro shown
    rw [scalar_of_holdsText ht]
    exact value_of_holdsText ht shown (reads_stringValue hlength)
  | nullText ht =>
    intro shown
    rw [scalar_of_holdsText ht]
    exact value_of_holdsText ht shown reads_nullValue
  | array hlength helems ih =>
    intro shown
    refine reads_arrayValue hlength ?_ ?_
    · rw [List.forall₂_map_left_iff, List.forall₂_same]
      exact fun v hv => ih v hv _
    · rw [List.forall_mem_map]
      exact fun v hv => valueBytes_ne_nil (helems v hv)
  | nullArray => exact fun _ => reads_nullArray _

theorem reads_values {types : List TypeSig} {vs : List AttributeValue}
    (h : List.Forall₂ (TypeSig.Admits typeName) types vs) :
    Reads 0 (values typeName types) (List.zipWith valueBytes types vs).flatten vs := by
  induction h with
  | nil => exact reads_pure []
  | cons hv _ ih =>
    rw [List.zipWith_cons_cons, List.flatten_cons]
    exact (reads_value hv _).bind (ih.map _) (Nat.zero_le _)

/-! ## Named arguments -/

/-- The tag of a primitive that may be named is that of no array and of nothing that is refused. -/
theorem tag_of_mayBeNamed {p : Primitive} (h : mayBeNamed p = true) :
    (UInt8.ofNat p.code).toNat ≠ Element.szArray
      ∧ ¬ ((UInt8.ofNat p.code).toNat = Element.boxed
        ∨ (UInt8.ofNat p.code).toNat = Element.enumeration)
      ∧ Primitive.ofCode? (UInt8.ofNat p.code).toNat = some p := by
  cases p <;> revert h <;> decide

/-- **The type of a named argument is read back**, if it nests no deeper than there are bytes. -/
theorem reads_namedType {t : TypeSig} (h : t.Nameable) :
    ∀ left, (typeBytes t).length ≤ left → Reads 0 (namedType left) (typeBytes t) t := by
  induction h with
  | @prim p hp =>
    intro left hleft
    obtain ⟨left, rfl⟩ := Nat.exists_eq_add_of_le' hleft
    obtain ⟨hnotArray, hnotRefused, hcode⟩ := tag_of_mayBeNamed hp
    unfold namedType
    refine Reads.of_offset fun at_ => Reads.after_byte ?_ _
    dsimp only [TypeSig.kind]
    rw [if_neg hnotArray, if_neg hnotRefused, hcode]
    dsimp only
    rw [if_pos hp]
    exact reads_pure _
  | @szArray t _ ih =>
    intro left hleft
    rw [typeBytes, List.length_cons] at hleft
    obtain ⟨left, rfl⟩ := Nat.exists_eq_add_of_le' (Nat.le_trans (Nat.le_add_left 1 _) hleft)
    unfold namedType
    refine Reads.of_offset fun at_ => Reads.after_byte ?_ _
    dsimp only
    rw [if_pos (by decide)]
    exact (ih left (Nat.le_of_succ_le_succ hleft)).map _

/-- The types that are read in front of named arguments are those that may stand there, and no
others. -/
theorem nameable_of_namedType : ∀ {left : Nat} {d d' : Decoder} {t : TypeSig},
    namedType left d = .ok t d' → t.Nameable
  | 0, d, d', t, h => by
    obtain ⟨at_, d₁, -, h⟩ := EStateM.bind_ok h
    cases h
  | left + 1, d, d', t, h => by
    unfold namedType at h
    obtain ⟨at_, d₁, -, h⟩ := EStateM.bind_ok h
    obtain ⟨b, d₂, -, h⟩ := EStateM.bind_ok h
    dsimp only at h
    by_cases harray : b.toNat = Element.szArray
    · rw [if_pos harray] at h
      obtain ⟨elem, d₃, helem, h⟩ := EStateM.bind_ok h
      cases h
      exact .szArray (nameable_of_namedType helem)
    rw [if_neg harray] at h
    by_cases hrefused : b.toNat = Element.boxed ∨ b.toNat = Element.enumeration
    · rw [if_pos hrefused] at h
      cases h
    rw [if_neg hrefused] at h
    cases hcode : Primitive.ofCode? b.toNat with
    | none =>
      rw [hcode] at h
      cases h
    | some p =>
      rw [hcode] at h
      dsimp only at h
      by_cases hnamed : mayBeNamed p = true
      · rw [if_pos hnamed] at h
        cases h
        exact .prim hnamed
      · rw [if_neg hnamed] at h
        cases h

/-- **A named argument is read back.** -/
theorem reads_namedArgument {a : NamedArgument} (h : a.Proper typeName) :
    Reads 0 (namedArgument typeName) (namedBytes a) a := by
  have htag : ∀ isProperty : Bool,
      (UInt8.ofNat (if isProperty then propertyTag else fieldTag)).toNat
        = if isProperty then propertyTag else fieldTag := by decide
  have hkind : ∀ isProperty : Bool,
      ¬ ((if isProperty then propertyTag else fieldTag) ≠ fieldTag
        ∧ (if isProperty then propertyTag else fieldTag) ≠ propertyTag) := by decide
  have hproperty : ∀ isProperty : Bool,
      decide ((if isProperty then propertyTag else fieldTag) = propertyTag) = isProperty := by
    decide
  unfold namedArgument namedBytes
  refine Reads.of_offset fun at_ => Reads.after_byte ?_ _
  dsimp only
  rw [htag, if_neg (hkind _)]
  -- The bytes of the type are among those that are left, so it may nest as deep as it does.
  refine Reads.of_remaining fun left hleft => ?_
  have hfits : (typeBytes a.type).length ≤ left := by
    rw [List.length_append] at hleft
    omega
  refine (reads_namedType h.type left hfits).bind ?_ (Nat.zero_le _)
  refine Reads.of_offset fun at_ => ?_
  refine (reads_string h.name).bind ?_ (Nat.zero_le _)
  dsimp only
  rw [hproperty]
  exact (reads_value h.value a.type.text).map (NamedArgument.mk a.isProperty a.name a.type)

end Values

/-! ## All arguments -/

/-- **The arguments of an attribute are read back.** -/
theorem reads_arguments {typeName : Token → Except Fault Text} {ctor : MethodSig}
    {types : List TypeSig} {args : AttributeArguments} (htypes : ctor.paramTypes = .ok types)
    (hfixed : List.Forall₂ (TypeSig.Admits typeName) types args.fixed)
    (hnamed : ∀ a ∈ args.named, a.Proper typeName) (hcount : args.named.length < 0x10000) :
    Reads 0 (read typeName ctor) (argumentBytes types args) args := by
  have hmark : mark < 256 ^ 2 := by decide
  have hcount : args.named.length < 256 ^ 2 := hcount
  unfold read argumentBytes
  refine (reads_word _ hmark).bind ?_ (Nat.zero_le _)
  rw [if_neg (fun h => h rfl), htypes]
  refine (reads_values hfixed).bind ?_ (Nat.zero_le _)
  refine (reads_word _ hcount).bind ?_ (Nat.zero_le _)
  have hpieces : List.Forall₂ (Reads 0 (namedArgument typeName)) (args.named.map namedBytes)
      args.named := by
    rw [List.forall₂_map_left_iff, List.forall₂_same]
    exact fun a ha => reads_namedArgument (hnamed a ha)
  exact (reads_times hpieces).map _

end Attribute

/-- **Attribute values decode their encodings.** For a constructor whose parameters have types that
arguments may have, values of these types and named arguments of theirs are decoded from their bytes
as they were, in order, whatever follows. -/
theorem Image.attribute_reads_back (img : Image) {ctor : MethodSig} {types : List TypeSig}
    {args : AttributeArguments} (htypes : ctor.paramTypes = .ok types)
    (hfixed : List.Forall₂ (TypeSig.Admits img.typeName) types args.fixed)
    (hnamed : ∀ a ∈ args.named, a.Proper img.typeName) (hcount : args.named.length < 0x10000)
    (suffix : List UInt8) :
    img.attributeArguments ctor (Attribute.argumentBytes types args ++ suffix) = .ok args :=
  (Attribute.reads_arguments htypes hfixed hnamed hcount).onBlob suffix

/-- A reference to the type of types. -/
def typeOfTypes : List Assemble.Step :=
  [.row .typeRef [.number 6, .string "Type", .string "System"],
    .row .assemblyRef [.number 1, .number 2, .number 3, .number 4, .number 0, .number 0,
      .string "Lib", .number 0, .number 0]]

/-- A constructor with a type, an array of arrays of strings, and a modified integer. -/
def sampleConstructor : List UInt8 :=
  [0x20, 0x03, 0x01, 0x12, 0x05, 0x1D, 0x1D, 0x0E, 0x20, 0x05, 0x08]

/-- Arguments for it, with nulls for an array and for a string, and two named ones. -/
def sampleArguments : AttributeArguments where
  fixed := [.string "N.T", .array [.null, .array [.null, .string ""], .array []], .signed 4 (-2)]
  named := [⟨true, "P", .szArray (.prim .systemType), .null⟩,
    ⟨false, "F", .prim .r8, .float 8 0x7FF0000000000001⟩]

open Assemble in
theorem Image.attribute_reads_back_sampleArguments :
    ∃ (results : List Int) (b : Builder) (img : Image) (ctor : MethodSig),
      build typeOfTypes = .ok (results, b) ∧ Image.parse b.bytes = .ok img
        ∧ MethodSig.decode .methodDef sampleConstructor = .ok ctor
        ∧ img.attributeArguments ctor
            ([1, 0, 3, 0x4E, 0x2E, 0x54, 3, 0, 0, 0, 0xFF, 0xFF, 0xFF, 0xFF, 2, 0, 0, 0, 0xFF, 0,
              0, 0, 0, 0, 0xFE, 0xFF, 0xFF, 0xFF, 2, 0, 0x54, 0x1D, 0x50, 1, 0x50, 0xFF, 0xFF, 0xFF,
              0xFF, 0x53, 0x0D, 1, 0x46, 1, 0, 0, 0, 0, 0, 0xF0, 0x7F] ++ [0xFF])
          = .ok sampleArguments := by
  have hproper : ∀ s ∈ typeOfTypes, s.Proper := by
    simp [typeOfTypes, Step.Proper, TableId.columns]
  obtain ⟨results, b, img, hbuild, hparse, hrow, hread, hheaps⟩ := reproduces_of_build hproper
    (p := fun b => (b.rows.get .typeRef).explicit[0]? = some [6, 1, 6]) (by decide +kernel)
  have hrow := hread.row .typeRef 0 _ hrow
  have hscope : img.scopeOf 1 = .ok (Token.make .assemblyRef 1) :=
    (Image.scopeOf_of_row hrow rfl).trans (by rfl)
  have hown : img.NamedAs .typeRef 1 "System.Type" := Image.namedAs_of_row hrow rfl rfl
    (hheaps.string "Type" 1 (by decide +kernel) (by decide +kernel))
    (hheaps.string "System" 6 (by decide +kernel) (by decide +kernel))
  have hname : img.typeName (Token.make .typeRef 1) = .ok "System.Type" := by
    have hchain : img.NamesChain .typeRef (img.outerLink? .typeRef) (Token.make .typeRef 1) :=
      namesChain_outerLink? (Token.table?_make .typeRef 1) (.inr rfl)
    have hlast : img.outerLink? .typeRef 1 = none :=
      (outerLink?_typeRef img 1).trans (outerRow?_of_scopeOf hscope)
    exact (hchain.exact _).mpr
      ⟨[1], .outermost hlast, by decide, ["System.Type"], .cons hown .nil, rfl⟩
  obtain ⟨ctor, hctor, htypes⟩ : ∃ ctor, MethodSig.decode .methodDef sampleConstructor = .ok ctor
      ∧ ctor.paramTypes = .ok [.named (Token.make .typeRef 1) false,
        .szArray (.szArray (.prim .string)),
        .modified false (Token.make .typeRef 1) (.prim .i4)] := ⟨_, rfl, rfl⟩
  have hnull : TypeSig.Admits img.typeName (.prim .string) .null := .nullText .string
  have hempty : TypeSig.Admits img.typeName (.prim .string) (.string "") :=
    .text .string (by decide)
  have hfixed : List.Forall₂ (TypeSig.Admits img.typeName) [.named (Token.make .typeRef 1) false,
      .szArray (.szArray (.prim .string)), .modified false (Token.make .typeRef 1) (.prim .i4)]
      sampleArguments.fixed := by
    refine .cons (.text (.named rfl hname) (by decide)) (.cons (.array (by decide) ?_)
      (.cons (.modified (.signed rfl (by decide))) .nil))
    simp only [List.forall_mem_cons]
    refine ⟨.nullArray, .array (by decide) ?_, .array (by decide) ?_, List.forall_mem_nil _⟩
    · simp only [List.forall_mem_cons]
      exact ⟨hnull, hempty, List.forall_mem_nil _⟩
    · exact List.forall_mem_nil _
  have hnamed : ∀ a ∈ sampleArguments.named, a.Proper img.typeName := by
    simp only [sampleArguments, List.forall_mem_cons]
    exact ⟨⟨.szArray (.prim rfl), by decide, .nullArray⟩,
      ⟨.prim rfl, by decide, .float rfl (by decide)⟩, List.forall_mem_nil _⟩
  exact ⟨results, b, img, ctor, hbuild, hparse, hctor,
    attribute_reads_back img htypes hfixed hnamed (by decide) [0xFF]⟩

end ManagedImage
