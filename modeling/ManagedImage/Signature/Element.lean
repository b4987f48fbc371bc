/-
The tags that introduce the parts of a signature.

A tag is one byte. Some stand for a type by themselves, the primitives; the
others say what follows. Constants and attribute arguments use the same
numbers, with a few more that occur nowhere else.
-/
import ManagedImage.Text

set_option autoImplicit false

namespace ManagedImage

/-- A type that its tag names completely. -/
inductive Primitive where
  | void | boolean | char | i1 | u1 | i2 | u2 | i4 | u4 | i8 | u8 | r4 | r8 | string
  | typedByRef | i | u | object
  /-- The type of types, which only attribute arguments use. -/
  | systemType
deriving DecidableEq, Repr

namespace Primitive

/-- The tag of the primitive. -/
def code : Primitive → Nat
  | .void => 0x01
  | .boolean => 0x02
  | .char => 0x03
  | .i1 => 0x04
  | .u1 => 0x05
  | .i2 => 0x06
  | .u2 => 0x07
  | .i4 => 0x08
  | .u4 => 0x09
  | .i8 => 0x0A
  | .u8 => 0x0B
  | .r4 => 0x0C
  | .r8 => 0x0D
  | .string => 0x0E
  | .typedByRef => 0x16
  | .i => 0x18
  | .u => 0x19
  | .object => 0x1C
  | .systemType => 0x50

/-- How the primitive is spelled in a type. -/
def name : Primitive → String
  | .void => "void"
  | .boolean => "bool"
  | .char => "char"
  | .i1 => "int8"
  | .u1 => "uint8"
  | .i2 => "int16"
  | .u2 => "uint16"
  | .i4 => "int32"
  | .u4 => "uint32"
  | .i8 => "int64"
  | .u8 => "uint64"
  | .r4 => "float32"
  | .r8 => "float64"
  | .string => "string"
  | .typedByRef => "typedref"
  | .i => "native int"
  | .u => "native uint"
  | .object => "object"
  | .systemType => "type"

/-- Every primitive. -/
def all : List Primitive := [
  .void, .boolean, .char, .i1, .u1, .i2, .u2, .i4, .u4, .i8, .u8, .r4, .r8, .string, .typedByRef,
  .i, .u, .object, .systemType]

/-- The primitive with a tag. -/
def ofCode? (n : Nat) : Option Primitive := all.find? fun p => p.code = n

end Primitive

namespace Element

/-- The tags that are followed by something. -/
def ptr : Nat := 0x0F
@[inherit_doc ptr] def byRef : Nat := 0x10
@[inherit_doc ptr] def valueType : Nat := 0x11
@[inherit_doc ptr] def classType : Nat := 0x12
@[inherit_doc ptr] def typeVar : Nat := 0x13
@[inherit_doc ptr] def array : Nat := 0x14
@[inherit_doc ptr] def genericInst : Nat := 0x15
@[inherit_doc ptr] def fnPtr : Nat := 0x1B
@[inherit_doc ptr] def szArray : Nat := 0x1D
@[inherit_doc ptr] def methodVar : Nat := 0x1E
@[inherit_doc ptr] def required : Nat := 0x1F
@[inherit_doc ptr] def optional : Nat := 0x20
@[inherit_doc ptr] def sentinel : Nat := 0x41
@[inherit_doc ptr] def pinned : Nat := 0x45
@[inherit_doc ptr] def boxed : Nat := 0x51
@[inherit_doc ptr] def enumeration : Nat := 0x55

/-- How a bare tag is shown. -/
def text (n : Nat) : String :=
  if n = classType then "class"
  else match Primitive.ofCode? n with
    | some .systemType | none => "ELEMENT_TYPE(0x" ++ hexPad 2 n ++ ")"
    | some p => p.name

/-- How a tag is shown where it stands for a primitive type. -/
def primitiveText (n : Nat) : String :=
  match Primitive.ofCode? n with
  | some p => p.name
  | none => text n

end Element

end ManagedImage
