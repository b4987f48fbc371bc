/-
What the simulated evaluation stack holds.

A slot has a category, which is all that arithmetic looks at; a type, where the
instruction that pushed it knows one; and the place of that instruction.
-/
import ManagedImage.Code.Instruction
import ManagedImage.Signature.TypeSig

set_option autoImplicit false

namespace ManagedImage

/-- The kind of value in a slot. Value types have none. -/
inductive Category where
  | none | int32 | int64 | nativeInt | float | object | reference
deriving DecidableEq, Repr

namespace Category

/-- The name of a category. -/
def name : Category → String
  | .none => "none"
  | .int32 => "int32"
  | .int64 => "int64"
  | .nativeInt => "native int"
  | .float => "float"
  | .object => "object"
  | .reference => "managed ref"

/-- Every category, in the order of their numbers. -/
def all : List Category := [.none, .int32, .int64, .nativeInt, .float, .object, .reference]

/-- How the number of a category is shown. -/
def numberText (n : Nat) : String :=
  match all[n]? with
  | some c => c.name
  | .none => s!"Category({n})"

/-- The category of a primitive type. -/
def ofPrimitive : Primitive → Category
  | .boolean | .char | .i1 | .u1 | .i2 | .u2 | .i4 | .u4 => .int32
  | .i8 | .u8 => .int64
  | .i | .u => .nativeInt
  | .r4 | .r8 => .float
  | .string | .object => .object
  | .void | .typedByRef | .systemType => .none

/-- The category of a type. -/
def ofType : TypeSig → Category
  | .modified _ _ elem => ofType elem
  | .pinned elem => ofType elem
  | .prim p => ofPrimitive p
  | .named _ isValue | .inst _ isValue _ => if isValue then .none else .object
  | .szArray _ | .array .. => .object
  | .byRef _ => .reference
  | .pointer _ | .fnPtr .. => .nativeInt
  | .typeVar _ | .methodVar _ => .none

/-- Whether a value may be combined with an integer of any of the two short widths. -/
def isNativeOr32 : Category → Bool
  | .int32 | .nativeInt => true
  | _ => false

/-- Whether a value is an integer. -/
def isInteger : Category → Bool
  | .int32 | .int64 | .nativeInt => true
  | _ => false

/-- Whether two values may be compared. -/
def comparable (a b : Category) : Bool :=
  if a.isNativeOr32 && b.isNativeOr32 then true
  else if a = b then a ≠ .none
  else (a = .reference && b = .nativeInt) || (a = .nativeInt && b = .reference)

/-- The type of a computed value. -/
def resultType : Category → Option TypeSig
  | .int32 => some (.prim .i4)
  | .int64 => some (.prim .i8)
  | .nativeInt => some (.prim .i)
  | .float => some (.prim .r8)
  | _ => Option.none

end Category

/-- What an instruction leaves on the stack. -/
structure Operated where
  /-- The category. -/
  category : Category
  /-- The type, where it is known. -/
  type : Option TypeSig

namespace Operated

/-- A value of a type. -/
def ofType (t : TypeSig) : Operated := ⟨Category.ofType t, some t⟩

/-- A value of a primitive type. -/
def ofPrimitive (p : Primitive) : Operated := ofType (.prim p)

/-- A value of a type that may be unknown. -/
def ofType? : Option TypeSig → Operated
  | some t => ofType t
  | none => ⟨.none, none⟩

/-- An object of a type that may be unknown. -/
def object (t : Option TypeSig) : Operated := ⟨.object, t⟩

/-- A reference to a value of a type that may be unknown. -/
def reference (t : Option TypeSig) : Operated := ⟨.reference, t.map .byRef⟩

end Operated

/-- A value on the stack. -/
structure Slot where
  /-- The kind of value. -/
  category : Category
  /-- Its type, where it is known. -/
  type : Option TypeSig
  /-- The place of the instruction that pushed it. -/
  source : Nat

namespace Slot

/-- A value left by the instruction at a place. -/
def pushedAt (v : Operated) (source : Nat) : Slot := ⟨v.category, v.type, source⟩

/-- How a slot is shown. -/
def render (s : Slot) : Text :=
  (s.category.name : Text)
    ++ (match s.type with
      | some t => "(" ++ t.text ++ (")" : Text)
      | none => Text.empty)
    ++ ("@" ++ targetText s.source : Text)

end Slot

end ManagedImage
