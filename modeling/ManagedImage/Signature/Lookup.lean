/-
Signatures of the members of an image, and types with their names.

A token leads to a row, the row to a blob, the blob to a signature. Naming goes
the other way: a type specification is decoded again and spelled out in place,
which may lead to further ones. That chain comes from the image and may be
cyclic, so it is followed at most sixty-four steps; a token that cannot be named
is shown as it is.
-/
import ManagedImage.Signature.Method
import ManagedImage.Signature.Member
import ManagedImage.Metadata.Names

set_option autoImplicit false

namespace ManagedImage.Image

/-! ## Finding signatures -/

/-- The blob that a column of a token's row points to; the token has to be of the table. -/
def signatureBlob (img : Image) (tok : Token) (t : TableId) (col : Nat) :
    Except Fault (List UInt8) := do
  if tok.table? ≠ some t then
    throw (.invalidInput .signature
      (tok.render ++ " is not a " ++ t.name ++ " token" : String))
  let idx ← (img.table t).column tok.row col
  return (← img.blobs.get idx).data.toList

/-- The signature of a method that carries its own signature. -/
def ownMethodSig (img : Image) (tok : Token) : Except Fault MethodSig := do
  match tok.table? with
  | some .methodDef => MethodSig.decode .methodDef (← img.signatureBlob tok .methodDef 4)
  | some .memberRef =>
    let blob ← img.signatureBlob tok .memberRef 2
    if blob.head?.map UInt8.toNat = some Lead.field then
      throw (.invalidInput .signature (tok.render ++ " references a field" : String))
    MethodSig.decode .memberRef blob
  | _ => throw (.invalidInput .signature (tok.render ++ " is not a method token" : String))

/-- The signature of a method; that of an instantiation is the one it instantiates. -/
def methodSig (img : Image) (tok : Token) : Except Fault MethodSig := do
  if tok.table? = some .methodSpec then
    let coded ← (img.table .methodSpec).column tok.row 0
    img.ownMethodSig (← CodedKind.methodDefOrRef.decode coded)
  else img.ownMethodSig tok

/-- The type of a field. -/
def fieldType (img : Image) (tok : Token) : Except Fault TypeSig := do
  match tok.table? with
  | some .field => TypeSig.ofField (← img.signatureBlob tok .field 2)
  | some .memberRef => TypeSig.ofField (← img.signatureBlob tok .memberRef 2)
  | _ => throw (.invalidInput .signature (tok.render ++ " is not a field token" : String))

/-- The signature of an indirect call. -/
def standAloneSig (img : Image) (tok : Token) : Except Fault MethodSig := do
  MethodSig.decode .standAlone (← img.signatureBlob tok .standAloneSig 0)

/-- The types of the local variables that a method body names; a zero token names none. -/
def localTypes (img : Image) (tok : Token) : Except Fault (List TypeSig) := do
  if tok = Token.null then return []
  TypeSig.ofLocals (← img.signatureBlob tok .standAloneSig 0)

/-- The arguments of a method instantiation. -/
def instantiationArgs (img : Image) (tok : Token) : Except Fault (List TypeSig) := do
  TypeSig.ofMethodSpec (← img.signatureBlob tok .methodSpec 1)

/-- The type that a type specification stands for. -/
def typeSpec (img : Image) (tok : Token) : Except Fault TypeSig := do
  TypeSig.ofTypeSpec (← img.signatureBlob tok .typeSpec 0)

/-! ## Naming -/

/-- The name of a token in a type; `levels` more specifications may be spelled out in it. -/
def nameWithin (img : Image) : (levels : Nat) → Token → Text
  | levels, tok =>
    match tok.table? with
    | some .typeDef | some .typeRef => match img.typeName tok with
      | .ok name => name
      | .error _ => tok.render
    | some .typeSpec => match levels with
      | 0 => tok.render
      | levels + 1 => match img.typeSpec tok with
        | .ok t => t.render (img.nameWithin levels)
        | .error _ => tok.render
    | _ => tok.render

/-- The name of a token in a type. -/
def nameOf (img : Image) (tok : Token) : Text := img.nameWithin Decode.maxLevels tok

/-- A type spelled out with names. -/
def typeText (img : Image) (t : TypeSig) : Text := t.render img.nameOf

/-- A method signature spelled out with names. -/
def methodText (img : Image) (m : MethodSig) : Text := m.render img.nameOf Text.empty

end ManagedImage.Image
