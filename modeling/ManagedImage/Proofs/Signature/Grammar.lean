/-
The type grammar as a writer.

The decoder is the only code that knows the grammar. Here it is written down the
other way round, as the bytes of a type, together with what a type must be for
the decoder to give it back: how deep it nests, where void stands, which tables its
tokens refer to.

`Everywhere` walks a type as the decoder does, and knows at each node whether void
is allowed there. A function pointer carries the bytes its parameters were read
from; `bare` forgets them, and `Rereadable` says that reading them again gives the
parameters at the node.
-/
import ManagedImage.Signature.Method

set_option autoImplicit false

namespace ManagedImage

/-- The token refers to a table of types. -/
def Token.IsType (tok : Token) : Prop :=
  tok.table? = some .typeDef ∨ tok.table? = some .typeRef ∨ tok.table? = some .typeSpec

/-! ## Heads of method signatures -/

/-- The lead byte of a method signature. -/
def leadByte (convention : Nat) (generic hasThis explicitThis : Bool) : UInt8 :=
  UInt8.ofNat (convention + (if generic then 0x10 else 0) + (if hasThis then 0x20 else 0)
    + if explicitThis then 0x40 else 0)

/-- What a thing outside the grammar is answered with. -/
def Fault.unwritable : Fault := .invalidInput .signature "no encoding"

/-- The bytes of a count that need not be there. -/
def optionalCount : Option Nat → Except Fault (List UInt8)
  | some n => Compressed.encode n
  | none => .ok []

/-- The bytes of a head. The generic count is there when the lead byte announces it. -/
def MethodHead.encode (origin : Decode.Origin) (h : MethodHead) : Except Fault (List UInt8) :=
  if Decode.conventionAllowed origin h.convention
      ∧ h.genericCount.isSome = (h.generic && origin ≠ .standAlone) then do
    let generics ← optionalCount h.genericCount
    let count ← Compressed.encode h.paramCount
    return leadByte h.convention h.generic h.hasThis h.explicitThis :: (generics ++ count)
  else .error .unwritable

/-! ## Bytes of a type -/

/-- The count of some pieces and the pieces. -/
def countedBytes (pieces : List (List UInt8)) : Except Fault (List UInt8) := do
  return (← Compressed.encode pieces.length) ++ pieces.flatten

/-- The bytes of parameters, with the sentinel in front of the one at its place. -/
def paramBytes (sentinel : Option Nat) (pieces : List (List UInt8)) : List UInt8 :=
  match sentinel with
  | none => pieces.flatten
  | some n => (pieces.take n).flatten ++ UInt8.ofNat Element.sentinel :: (pieces.drop n).flatten

/-- The bytes of each of some things. -/
def encodeEach {α : Type} (encode : α → Except Fault (List UInt8)) :
    List α → Except Fault (List (List UInt8))
  | [] => .ok []
  | a :: rest => do return (← encode a) :: (← encodeEach encode rest)

/-- The tag of a class or value type. -/
def classTag (isValue : Bool) : Nat := if isValue then Element.valueType else Element.classType

/-- The tag of a modifier. -/
def modifierTag (required : Bool) : Nat := if required then Element.required else Element.optional

namespace TypeSig

mutual

/-- The bytes of a type, in the order the decoder reads them. -/
def encode : TypeSig → Except Fault (List UInt8)
  | .prim p => if p = .systemType then .error .unwritable else .ok [UInt8.ofNat p.code]
  | .named tok isValue => do return UInt8.ofNat (classTag isValue) :: (← tok.encodeType)
  | .inst tok isValue args => do
    let token ← tok.encodeType
    let args ← countedBytes (← encodeAll args)
    return UInt8.ofNat Element.genericInst :: UInt8.ofNat (classTag isValue) :: (token ++ args)
  | .array elem rank sizes lower => do
    let elem ← elem.encode
    let rank ← Compressed.encode rank
    let sizes ← countedBytes (← encodeEach Compressed.encode sizes)
    let lower ← countedBytes (← encodeEach Compressed.encodeSigned lower)
    return UInt8.ofNat Element.array :: (elem ++ (rank ++ (sizes ++ lower)))
  | .szArray elem => do return UInt8.ofNat Element.szArray :: (← elem.encode)
  | .pointer elem => do return UInt8.ofNat Element.ptr :: (← elem.encode)
  | .byRef elem => do return UInt8.ofNat Element.byRef :: (← elem.encode)
  | .pinned elem => do return UInt8.ofNat Element.pinned :: (← elem.encode)
  | .modified required tok elem => do
    let token ← tok.encodeType
    return UInt8.ofNat (modifierTag required) :: (token ++ (← elem.encode))
  | .typeVar index => do return UInt8.ofNat Element.typeVar :: (← Compressed.encode index)
  | .methodVar index => do return UInt8.ofNat Element.methodVar :: (← Compressed.encode index)
  | .fnPtr head ret params sentinel _ _ =>
    if head.paramCount = params.length ∧ ∀ n, sentinel = some n → n < params.length then do
      let head ← head.encode .memberRef
      let ret ← ret.encode
      let pieces ← encodeAll params
      return UInt8.ofNat Element.fnPtr :: (head ++ (ret ++ paramBytes sentinel pieces))
    else .error .unwritable

/-- The bytes of each of the types. -/
def encodeAll : List TypeSig → Except Fault (List (List UInt8))
  | [] => .ok []
  | t :: rest => do return (← t.encode) :: (← encodeAll rest)

end

/-! ## Nesting -/

mutual

/-- How deep the type nests, itself included. -/
def levels : TypeSig → Nat
  | .inst _ _ args => levelsAll args + 1
  | .array elem _ _ _ | .szArray elem | .pointer elem | .byRef elem | .pinned elem
  | .modified _ _ elem => elem.levels + 1
  | .fnPtr _ ret params _ _ _ => max ret.levels (levelsAll params) + 1
  | _ => 1

/-- How deep the deepest of the types nests. -/
def levelsAll : List TypeSig → Nat
  | [] => 0
  | t :: rest => max t.levels (levelsAll rest)

end

theorem levels_le_levelsAll {t : TypeSig} {ts : List TypeSig} (h : t ∈ ts) :
    t.levels ≤ levelsAll ts := by
  induction ts with
  | nil => cases h
  | cons u rest ih =>
    rw [levelsAll]
    rcases List.mem_cons.mp h with rfl | hrest
    · exact Nat.le_max_left _ _
    · exact Nat.le_trans (ih hrest) (Nat.le_max_right _ _)

theorem levelsAll_le {ts : List TypeSig} {n : Nat} (h : ∀ t ∈ ts, t.levels ≤ n) :
    levelsAll ts ≤ n := by
  induction ts with
  | nil => exact Nat.zero_le n
  | cons t rest ih =>
    rw [levelsAll]
    exact Nat.max_le.mpr ⟨h t List.mem_cons_self, ih fun u hu => h u (List.mem_cons_of_mem t hu)⟩

/-! ## Properties of all nodes -/

mutual

/-- `P` holds at every node of the type, given whether void is allowed at its top. -/
def Everywhere (P : Bool → TypeSig → Prop) : Bool → TypeSig → Prop
  | v, .inst tok isValue args => P v (.inst tok isValue args) ∧ EverywhereAll P args
  | v, .array elem rank sizes lower => P v (.array elem rank sizes lower) ∧ elem.Everywhere P false
  | v, .szArray elem => P v (.szArray elem) ∧ elem.Everywhere P false
  | v, .pointer elem => P v (.pointer elem) ∧ elem.Everywhere P true
  | v, .byRef elem => P v (.byRef elem) ∧ elem.Everywhere P false
  | v, .pinned elem => P v (.pinned elem) ∧ elem.Everywhere P false
  | v, .modified required tok elem => P v (.modified required tok elem) ∧ elem.Everywhere P v
  | v, .fnPtr head ret params sentinel complete bytes =>
    P v (.fnPtr head ret params sentinel complete bytes)
      ∧ ret.Everywhere P true ∧ EverywhereAll P params
  | v, t => P v t

/-- `P` holds at every node of types where void is not allowed. -/
def EverywhereAll (P : Bool → TypeSig → Prop) : List TypeSig → Prop
  | [] => True
  | t :: rest => t.Everywhere P false ∧ EverywhereAll P rest

end

theorem everywhereAll_iff {P : Bool → TypeSig → Prop} {ts : List TypeSig} :
    EverywhereAll P ts ↔ ∀ t ∈ ts, t.Everywhere P false := by
  induction ts with
  | nil => simp [EverywhereAll]
  | cons t rest ih => simp [EverywhereAll, ih]

mutual

theorem Everywhere.mono {P Q : Bool → TypeSig → Prop} (h : ∀ v t, P v t → Q v t) :
    ∀ (t : TypeSig) (v : Bool), t.Everywhere P v → t.Everywhere Q v
  | .prim _, v, ht | .named _ _, v, ht | .typeVar _, v, ht | .methodVar _, v, ht => h v _ ht
  | .inst _ _ args, v, ht => ⟨h v _ ht.1, EverywhereAll.mono h args ht.2⟩
  | .array elem _ _ _, v, ht | .szArray elem, v, ht | .byRef elem, v, ht | .pinned elem, v, ht =>
    ⟨h v _ ht.1, Everywhere.mono h elem false ht.2⟩
  | .pointer elem, v, ht => ⟨h v _ ht.1, Everywhere.mono h elem true ht.2⟩
  | .modified _ _ elem, v, ht => ⟨h v _ ht.1, Everywhere.mono h elem v ht.2⟩
  | .fnPtr _ ret params _ _ _, v, ht =>
    ⟨h v _ ht.1, Everywhere.mono h ret true ht.2.1, EverywhereAll.mono h params ht.2.2⟩

theorem EverywhereAll.mono {P Q : Bool → TypeSig → Prop} (h : ∀ v t, P v t → Q v t) :
    ∀ ts : List TypeSig, EverywhereAll P ts → EverywhereAll Q ts
  | [], _ => trivial
  | t :: rest, ht => ⟨Everywhere.mono h t false ht.1, EverywhereAll.mono h rest ht.2⟩

end

/-- Void stands only where it is allowed. -/
def VoidPlaced (allowed : Bool) (t : TypeSig) : Prop := t = .prim .void → allowed = true

/-- The token of the node, if it has one, refers to a table of types. -/
def TypeToken (_ : Bool) : TypeSig → Prop
  | .named tok _ | .inst tok _ _ | .modified _ tok _ => tok.IsType
  | _ => True

/-- A function pointer gives its parameters when they are read again on their own. -/
def Rereadable (_ : Bool) : TypeSig → Prop
  | .fnPtr head ret params sentinel complete bytes =>
    complete = true ∧ (MethodSig.mk head ret bytes).params = ⟨params, sentinel, none⟩
  | _ => True

/-! ## Without the bytes of parameters -/

mutual

/-- The type without the bytes that parameters of function pointers were read from. -/
def bare : TypeSig → TypeSig
  | .inst tok isValue args => .inst tok isValue (bareAll args)
  | .array elem rank sizes lower => .array elem.bare rank sizes lower
  | .szArray elem => .szArray elem.bare
  | .pointer elem => .pointer elem.bare
  | .byRef elem => .byRef elem.bare
  | .pinned elem => .pinned elem.bare
  | .modified required tok elem => .modified required tok elem.bare
  | .fnPtr head ret params sentinel _ _ => .fnPtr head ret.bare (bareAll params) sentinel true []
  | t => t

/-- The types without those bytes. -/
def bareAll : List TypeSig → List TypeSig
  | [] => []
  | t :: rest => t.bare :: bareAll rest

end

end TypeSig

end ManagedImage
