/-
The signatures of fields, properties, locals and method instantiations.

Each form starts with a lead byte of its own, so a blob is of one form at most.
A type specification is a bare type without lead.
-/
import ManagedImage.Signature.Decoder

set_option autoImplicit false

namespace ManagedImage

/-- The type of a property and of its indexer parameters. -/
structure PropertySig where
  /-- Whether the property belongs to an instance. -/
  hasThis : Bool
  /-- The type of the property. -/
  type : TypeSig
  /-- The types of the parameters. -/
  params : List TypeSig

namespace Lead

/-- The lead bytes of the forms. -/
def field : Nat := 0x06
@[inherit_doc field] def locals : Nat := 0x07
@[inherit_doc field] def property : Nat := 0x08
@[inherit_doc field] def methodSpec : Nat := 0x0A
/-- What an instance property adds to its lead. -/
def instanceFlag : Nat := 0x20

end Lead

namespace Decode

/-- The fault of a lead byte that belongs to another form. -/
def leadFault (what : String) (lead : Nat) : Fault :=
  .format .signature 0 ("invalid " ++ what ++ " lead byte 0x" ++ hexPad 2 lead : String)

/-- The lead byte, which must be one of a form. -/
def lead (allowed : List Nat) (what : String) : Decode Nat := do
  let b := (← byte what).toNat
  if b ∈ allowed then return b else throw (leadFault what b)

/-- A counted list of types, each called `what`. -/
def types (what : String) : Decode (List TypeSig) :=
  counted (what ++ " count") (what ++ "s") (type false)

end Decode

/-- The type of a field. -/
def TypeSig.ofField (blob : List UInt8) : Except Fault TypeSig :=
  blob |> Decode.onBlob do
    let _ ← Decode.lead [Lead.field] "field signature"
    Decode.type false

/-- The types of the local variables of a method. -/
def TypeSig.ofLocals (blob : List UInt8) : Except Fault (List TypeSig) :=
  blob |> Decode.onBlob do
    let _ ← Decode.lead [Lead.locals] "local signature"
    Decode.types "local"

/-- The arguments of a method instantiation. -/
def TypeSig.ofMethodSpec (blob : List UInt8) : Except Fault (List TypeSig) :=
  blob |> Decode.onBlob do
    let _ ← Decode.lead [Lead.methodSpec] "method instantiation"
    Decode.types "generic argument"

/-- The type in a type specification. -/
def TypeSig.ofTypeSpec (blob : List UInt8) : Except Fault TypeSig :=
  Decode.onBlob (Decode.type false) blob

namespace PropertySig

/-- The signature of a property: the count of its parameters, its type, then theirs. -/
def decode (blob : List UInt8) : Except Fault PropertySig :=
  blob |> Decode.onBlob do
    let lead ← Decode.lead [Lead.property, Lead.property + Lead.instanceFlag] "property signature"
    let n ← Decode.count "property parameter count" "property parameters"
    let type ← Decode.type false
    let params ← Decode.times (Decode.type false) n
    return ⟨lead ≠ Lead.property, type, params⟩

/-- The property spelled out. -/
def text (p : PropertySig) : Text :=
  (if p.hasThis then ("instance " : Text) else Text.empty) ++ p.type.text
    ++ "(" ++ Text.join ", " (p.params.map TypeSig.text) ++ (")" : Text)

end PropertySig

end ManagedImage
