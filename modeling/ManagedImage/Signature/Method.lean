/-
Method signatures.

Decoding one reads its head and its return type. The parameters stay bytes and
are read when they are asked for, so a signature with a broken parameter can
still be counted and shown; the list then ends in a fault.
-/
import ManagedImage.Signature.Decoder

set_option autoImplicit false

namespace ManagedImage

/-- A method signature whose parameters are still to be read. -/
structure MethodSig where
  /-- The flags and counts. -/
  head : MethodHead
  /-- The return type. -/
  ret : TypeSig
  /-- The bytes from the first parameter on. -/
  paramBytes : List UInt8

/-- The parameters of a signature as far as they can be read. -/
structure ParamList where
  /-- The types before any fault. -/
  types : List TypeSig
  /-- The number of types before the sentinel. -/
  sentinel : Option Nat
  /-- What is wrong with the parameter after the last type. -/
  fault : Option Fault

/-- One entry of a parameter list. -/
inductive ParamEntry where
  /-- A parameter. -/
  | type (t : TypeSig)
  /-- The place where the variable parameters start. -/
  | sentinel

/-- The entries in order, the sentinel in its place. -/
def ParamList.entries (l : ParamList) : List ParamEntry :=
  match l.sentinel with
  | some n => (l.types.take n).map .type ++ [.sentinel] ++ (l.types.drop n).map .type
  | none => l.types.map .type

namespace MethodSig

/-- Reads head and return type, and keeps the rest. -/
def decode (origin : Decode.Origin) (blob : List UInt8) : Except Fault MethodSig :=
  blob |> Decode.onBlob do
    let head ← Decode.methodHead origin
    let ret ← Decode.type true
    return ⟨head, ret, (← get).rest⟩

/-- The parameters as far as they can be read. -/
def params (m : MethodSig) : ParamList :=
  match Decode.params (Decode.type false) m.head.paramCount .none (Decoder.start m.paramBytes) with
  | (.ok (), scan, _) => ⟨scan.types, scan.sentinel, none⟩
  | (.error f, scan, _) => ⟨scan.types, scan.sentinel, some f⟩

/-- The types of all parameters. -/
def paramTypes (m : MethodSig) : Except Fault (List TypeSig) :=
  match m.params.fault with
  | none => .ok m.params.types
  | some f => .error f

/-- The number of values a call takes from the stack. -/
def argCount (m : MethodSig) : Nat := m.head.argCount

/-- Whether a call leaves nothing on the stack. -/
def returnsVoid (m : MethodSig) : Bool := m.ret.isVoid

/-- The signature spelled out, tokens named by `name` and `label` before the parameters. -/
def render (name : Token → Text) (label : Text) (m : MethodSig) : Text :=
  let l := m.params
  m.head.render (m.ret.render name) label
    (TypeSig.paramTexts (TypeSig.renderAll name l.types) l.sentinel l.fault.isNone)

/-- The signature with its tokens shown as they are. -/
def text (m : MethodSig) : Text := m.render (fun tok => tok.render) Text.empty

/-- The type of a pointer to a method with this signature. -/
def pointerType (m : MethodSig) : TypeSig :=
  let l := m.params
  .fnPtr m.head m.ret l.types l.sentinel l.fault.isNone m.paramBytes

end MethodSig

/-- The signature that a function pointer holds. -/
def TypeSig.pointedSig? : TypeSig → Option MethodSig
  | .fnPtr head ret _ _ _ paramBytes => some ⟨head, ret, paramBytes⟩
  | _ => none

end ManagedImage
