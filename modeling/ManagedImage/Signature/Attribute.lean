/-
Values of custom attributes.

The value blob starts with a fixed mark, then holds one value for each
parameter of the constructor, a count and that many named arguments. The
parameters say how to read the values; a named argument brings its own type.

Enumerations and boxed values need types of other assemblies and are refused.
-/
import ManagedImage.Signature.Lookup

set_option autoImplicit false

namespace ManagedImage

/-- A value of an attribute argument. -/
inductive AttributeValue where
  /-- A null string, type or array. -/
  | null
  /-- A truth value. -/
  | bool (b : Bool)
  /-- A character, as its code unit. -/
  | char (unit : Nat)
  /-- A signed integer of one, two, four or eight bytes. -/
  | signed (width : Nat) (v : Int)
  /-- An unsigned integer of one, two, four or eight bytes. -/
  | unsigned (width : Nat) (v : Nat)
  /-- A floating-point number of four or eight bytes, as its bits. -/
  | float (width : Nat) (bits : Nat)
  /-- A string, or the name of a type. -/
  | string (s : Text)
  /-- An array. -/
  | array (elems : List AttributeValue)

/-- An assignment to a field or property. -/
structure NamedArgument where
  /-- Whether a property is assigned, not a field. -/
  isProperty : Bool
  /-- The name of the field or property. -/
  name : Text
  /-- The type it is given. -/
  type : TypeSig
  /-- The value. -/
  value : AttributeValue

/-- The arguments of an attribute. -/
structure AttributeArguments where
  /-- The arguments of the constructor. -/
  fixed : List AttributeValue
  /-- The assignments. -/
  named : List NamedArgument

/-- A row of the table of attributes. -/
structure Attribute where
  /-- What the attribute is attached to. -/
  parent : Token
  /-- Its constructor. -/
  constructor : Token
  /-- Its arguments. -/
  arguments : AttributeArguments

namespace Attribute

open Decode

/-- The mark at the start of a value. -/
def mark : Nat := 0x0001

/-- The tag of an assignment to a field. -/
def fieldTag : Nat := 0x53

/-- The tag of an assignment to a property. -/
def propertyTag : Nat := 0x54

/-- The length of an array that is null. -/
def nullLength : Nat := 0xFFFFFFFF

/-- The fault of a type that no attribute argument has. -/
def typeFault (at_ : Nat) (shown : Text) : Fault :=
  .format .signature at_ (shown ++ (" is not an attribute argument type" : Text))

/-- The fault of a boxed value. -/
def boxedFault (at_ : Nat) : Fault := .unsupported .signature at_ "boxed attribute arguments"

/-- A string after its length; the null mark stands for none. -/
def stringOrNull : Decode (Option Text) := do
  if (← peek "string") = 0xFF then
    let _ ← byte "string"
    return none
  let n ← compressed "string length"
  return some (Text.ofList (← bytes n "string"))

/-- A string value. -/
def stringValue : Decode AttributeValue := do
  match ← stringOrNull with
  | some s => return .string s
  | none => return .null

/-- A signed integer of some width. -/
def signedValue (width : Nat) : Decode AttributeValue := do
  return .signed width (signedWord (8 * width) (← word width "attribute argument"))

/-- An unsigned integer of some width. -/
def unsignedValue (width : Nat) : Decode AttributeValue := do
  return .unsigned width (← word width "attribute argument")

/-- A floating-point number of some width. -/
def floatValue (width : Nat) : Decode AttributeValue := do
  return .float width (← word width "attribute argument")

/-- A value of a primitive type. -/
def primitive (p : Primitive) : Decode AttributeValue := do
  match p with
  | .boolean => return .bool ((← word 1 "attribute argument") ≠ 0)
  | .char => return .char (← word 2 "attribute argument")
  | .i1 => signedValue 1
  | .u1 => unsignedValue 1
  | .i2 => signedValue 2
  | .u2 => unsignedValue 2
  | .i4 => signedValue 4
  | .u4 => unsignedValue 4
  | .i8 => signedValue 8
  | .u8 => unsignedValue 8
  | .r4 => floatValue 4
  | .r8 => floatValue 8
  | .string | .systemType => stringValue
  | .object => throw (boxedFault (← offset))
  | _ => throw (typeFault (← offset) (Element.text p.code))

/-- A value of a class type, which has to be the type of types. -/
def classValue (typeName : Token → Except Fault Text) (tok : Token) : Decode AttributeValue := do
  let at_ ← offset
  match typeName tok with
  | .error f => throw f
  | .ok name =>
    if name = "System.Type" then stringValue
    else if name = "System.Object" then throw (boxedFault at_)
    else throw (typeFault at_ name)

/-- An array value whose elements `elem` reads. -/
def arrayValue (elem : Decode AttributeValue) : Decode AttributeValue := do
  let at_ ← offset
  let n ← word 4 "attribute array length"
  if n = nullLength then return .null
  if (← remaining) < n then
    throw (.bounds .signature at_ s!"attribute array of {n} elements exceeds the blob")
  return .array (← times elem n)

/-- A value of a type. A message about the type shows it as `shown`, with its modifiers. -/
def value (typeName : Token → Except Fault Text) (shown : Text) : TypeSig → Decode AttributeValue
  | .modified _ _ elem => value typeName shown elem
  | .pinned elem => value typeName shown elem
  | .prim p => primitive p
  | .named tok isValue | .inst tok isValue _ => do
    if isValue then throw (.unsupported .signature (← offset) "enum attribute arguments")
    classValue typeName tok
  | .szArray elem => arrayValue (value typeName elem.text elem)
  | _ => do throw (typeFault (← offset) shown)

/-- Whether a primitive may be the type of a named argument. -/
def mayBeNamed : Primitive → Bool
  | .void | .typedByRef | .i | .u | .object => false
  | _ => true

/-- The type in front of a named argument. Arrays of arrays nest less often than there are
bytes, which `left` counts. -/
def namedType : (left : Nat) → Decode TypeSig
  | 0 => do throw (readFault .unexpectedEnd (← offset) "named argument type")
  | left + 1 => do
    let at_ ← offset
    let tag := (← byte "named argument type").toNat
    let invalid : Fault := .format .signature at_
      ("invalid attribute argument type 0x" ++ hexPad 2 tag : String)
    if tag = Element.szArray then return .szArray (← namedType left)
    else if tag = Element.boxed ∨ tag = Element.enumeration then
      throw (.unsupported .signature at_ (Element.text tag ++ " attribute arguments" : String))
    else match Primitive.ofCode? tag with
      | some p => if mayBeNamed p then return .prim p else throw invalid
      | none => throw invalid

/-- A named argument. -/
def namedArgument (typeName : Token → Except Fault Text) : Decode NamedArgument := do
  let at_ ← offset
  let tag := (← byte "named argument").toNat
  if tag ≠ fieldTag ∧ tag ≠ propertyTag then
    throw (.format .signature at_ ("invalid named argument kind 0x" ++ hexPad 2 tag : String))
  let type ← namedType (← remaining)
  let at_ ← offset
  match ← stringOrNull with
  | none => throw (.format .signature at_ "named argument without a name")
  | some name => return ⟨tag = propertyTag, name, type, ← value typeName type.text type⟩

/-- A list of values, one for each type. -/
def values (typeName : Token → Except Fault Text) : List TypeSig → Decode (List AttributeValue)
  | [] => return []
  | t :: rest => do
    let v ← value typeName t.text t
    return v :: (← values typeName rest)

/-- The arguments of an attribute with the given constructor; classes are told apart by name. -/
def read (typeName : Token → Except Fault Text) (ctor : MethodSig) :
    Decode AttributeArguments := do
  let start ← word 2 "custom attribute prolog"
  if start ≠ mark then
    throw (.format .signature 0 ("invalid custom attribute prolog 0x" ++ hexPad 4 start : String))
  match ctor.paramTypes with
  | .error f => throw f
  | .ok types =>
    let fixed ← values typeName types
    let count ← word 2 "named argument count"
    return ⟨fixed, ← times (namedArgument typeName) count⟩

end Attribute

namespace Image

/-- The arguments that a value blob holds for a constructor. -/
def attributeArguments (img : Image) (ctor : MethodSig) (blob : List UInt8) :
    Except Fault AttributeArguments :=
  Decode.onBlob (Attribute.read img.typeName ctor) blob

/-- The attribute in a row. -/
def attributeAt (img : Image) (row : Nat) : Except Fault Attribute := do
  if row = 0 then throw (.invalidInput .signature "custom attribute row 0")
  let c ← (img.table .customAttribute).cursor.goto row
  let parent ← c.coded .hasCustomAttribute 0
  let constructor ← c.coded .customAttributeType 1
  let ctor ← img.methodSig constructor
  let blob ← img.blobs.get (c.value 2)
  let arguments ← img.attributeArguments ctor blob.data.toList
  return { parent, constructor, arguments }

end Image

end ManagedImage
