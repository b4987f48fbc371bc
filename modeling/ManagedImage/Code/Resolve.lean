/-
What the tokens in method code refer to.
-/
import ManagedImage.Code.Instruction
import ManagedImage.Signature.Lookup

set_option autoImplicit false

namespace ManagedImage

namespace Image

/-- The type that a token names. -/
def typeOf (img : Image) (tok : Token) : Except Fault TypeSig :=
  match tok.table? with
  | some .typeDef | some .typeRef => .ok (.named tok (img.isValueType tok))
  | some .typeSpec => img.typeSpec tok
  | _ => .error (.invalidInput .code (tok.render ++ " is not a type token" : String))

/-- The type of the receiver in the methods of a type. Value types are passed by reference. -/
def receiverType (img : Image) (owner : Token) : TypeSig :=
  if img.isValueType owner then .byRef (.named owner true) else .named owner false

/-- The types of the arguments of a method definition, the receiver first. -/
def argumentTypes (img : Image) (tok : Token) : Except Fault (List TypeSig) := do
  if tok.table? ≠ some .methodDef then
    throw (.invalidInput .stack (tok.render ++ " is not a method definition" : String))
  let sig ← img.methodSig tok
  let params ← sig.paramTypes
  if !sig.head.hasThis || sig.head.explicitThis then return params
  return img.receiverType (← img.declaring tok) :: params

/-- The type that a constructor makes, where the image says so. -/
def constructedType (img : Image) (tok : Token) : Except Fault (Option TypeSig) := do
  match tok.table? with
  | some .methodDef =>
    let owner ← img.declaring tok
    if owner.isNil then return none
    return some (← img.typeOf owner)
  | some .memberRef =>
    let c ← (img.table .memberRef).cursor.goto tok.row
    let parent ← c.coded .memberRefParent 0
    match parent.table? with
    | some .typeDef | some .typeRef | some .typeSpec => return some (← img.typeOf parent)
    | _ => return none
  | _ => return none

end Image

/-- What an operand refers to. -/
inductive Referent where
  /-- A string literal. -/
  | literal (s : Text)
  /-- The signature of an indirect call. -/
  | signature (sig : MethodSig)
  /-- A method with its full name. -/
  | method (sig : MethodSig) (name : Text)
  /-- A field with its full name. -/
  | field (type : TypeSig) (name : Text)
  /-- A type. -/
  | type (t : TypeSig)

namespace Image

/-- The method that a token names. -/
def methodReferent (img : Image) (tok : Token) : Except Fault Referent := do
  let sig ← img.methodSig tok
  return .method sig (← img.fullMemberName tok)

/-- The field that a token names. -/
def fieldReferent (img : Image) (tok : Token) : Except Fault Referent := do
  let type ← img.fieldType tok
  return .field type (← img.fullMemberName tok)

/-- The string literal that a token in the code at an offset names. -/
def literalReferent (img : Image) (tok : Token) (offset : Nat) : Except Fault Referent :=
  if !tok.isLiteral then
    .error (.format .code offset ("ldstr operand " ++ tok.render ++ " is not a user string" : String))
  else .literal <$> img.literals.get tok.row

end Image

namespace Instruction

/-- The token that an instruction works with. -/
def tokenOperand (i : Instruction) : Except Fault Token :=
  if i.op.operand.isToken then .ok i.operand.toToken
  else .error (.invalidInput .code (i.op.name ++ " has no token operand" : String))

/-- What the token of an instruction refers to. -/
def resolve (i : Instruction) (img : Image) : Except Fault Referent := do
  let tok ← i.tokenOperand
  match i.op.operand with
  | .string => img.literalReferent tok i.offset
  | .signature => .signature <$> img.standAloneSig tok
  | .method => img.methodReferent tok
  | .field => img.fieldReferent tok
  | .token =>
    if img.isMethod tok then img.methodReferent tok
    else if img.isField tok then img.fieldReferent tok
    else .type <$> img.typeOf tok
  | _ => .type <$> img.typeOf tok

end Instruction

end ManagedImage
