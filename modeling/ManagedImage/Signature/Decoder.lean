/-
Reading the type grammar.

A decoder is a position in a blob: the bytes still to read and how many were
read before them. Every step moves it, also one that fails, so that a caller
may go on afterwards.

Types nest at most sixty-four deep. The number of levels left is what the
reader recurses on; a count of arguments, sizes or parameters is refused when
it exceeds the bytes left, since each of those takes at least one byte.
-/
import ManagedImage.Signature.TypeSig
import ManagedImage.Metadata.CodedIndex
import ManagedImage.Bytes.Compressed
import ManagedImage.Bytes.Word

set_option autoImplicit false

namespace ManagedImage

/-- A position in a blob. -/
structure Decoder where
  /-- The number of bytes read. -/
  offset : Nat
  /-- The bytes to read. -/
  rest : List UInt8

/-- A step of decoding, which moves the position whether it succeeds or not. -/
abbrev Decode (α : Type) := EStateM Fault Decoder α

/-- A decoder at the start of a blob. -/
def Decoder.start (blob : List UInt8) : Decoder := ⟨0, blob⟩

/-- The decoder moved forward. -/
def Decoder.advance (d : Decoder) (n : Nat) : Decoder := ⟨d.offset + n, d.rest.drop n⟩

/-- The number of bytes to read. -/
def Decoder.remaining (d : Decoder) : Nat := d.rest.length

/-! ## Tokens in blobs -/

/-- Reads the compressed token of a type with the number of bytes used. -/
def Token.decodeType (bs : List UInt8) : Except Fault (Token × Nat) := do
  match ← Compressed.decode bs with
  | (none, _) => .error (.format .signature Fault.noOffset "invalid type token encoding 0xff")
  | (some v, used) => match CodedKind.typeDefOrRef.decode v with
    | .ok tok => .ok (tok, used)
    | .error _ => .error (.format .signature Fault.noOffset
        ("invalid type token encoding 0x" ++ hex v : String))

/-- The compressed token of a type. -/
def Token.encodeType (tok : Token) : Except Fault (List UInt8) := do
  Compressed.encode (← CodedKind.typeDefOrRef.encode tok)

namespace Decode

/-- The current position. -/
def offset : Decode Nat := do return (← get).offset

/-- The number of bytes left. -/
def remaining : Decode Nat := do return (← get).remaining

/-- A failed read of raw bytes, said of what was being read and where. -/
def readFault (f : ByteFault) (at_ : Nat) (what : String) : Fault :=
  match f with
  | .badCompressed =>
    .located .signature .format at_ ("invalid compressed " ++ what : String) (some (.bytes f))
  | _ => .located .signature .outOfBounds at_ (what ++ " truncated" : String) (some (.bytes f))

/-- The next byte. -/
def byte (what : String) : Decode UInt8 := do
  let d ← get
  match d.rest with
  | b :: _ => set (d.advance 1); return b
  | [] => throw (readFault .unexpectedEnd d.offset what)

/-- The next byte, left unread. -/
def peek (what : String) : Decode UInt8 := do
  let d ← get
  match d.rest with
  | b :: _ => return b
  | [] => throw (readFault .unexpectedEnd d.offset what)

/-- The next little-endian number of `width` bytes. -/
def word (width : Nat) (what : String) : Decode Nat := do
  let d ← get
  if width ≤ d.rest.length then
    set (d.advance width)
    return leNat (d.rest.take width)
  else throw (readFault .unexpectedEnd d.offset what)

/-- The next `n` bytes. -/
def bytes (n : Nat) (what : String) : Decode (List UInt8) := do
  let d ← get
  if n ≤ d.rest.length then
    set (d.advance n)
    return d.rest.take n
  else throw (readFault .unexpectedEnd d.offset what)

/-- A compressed integer. -/
def compressed (what : String) : Decode Nat := do
  let d ← get
  match Compressed.scan d.rest with
  | .value v used => set (d.advance used); return v
  | .fault f used => set (d.advance used); throw (readFault f d.offset what)

/-- A value that is found by looking at the bytes ahead, and stays unread if it is not there. -/
def ahead {α : Type} (look : List UInt8 → Except Fault (α × Nat)) : Decode α := do
  let d ← get
  match look d.rest with
  | .ok (a, used) => set (d.advance used); return a
  | .error f => throw (f.relocated d.offset)

/-- A compressed signed integer. -/
def signed : Decode Int := ahead Compressed.decodeSigned

/-- The token of a type. -/
def token : Decode Token := ahead Token.decodeType

/-- A count of things that take at least one byte each. -/
def count (what : String) (things : String) : Decode Nat := do
  let n ← compressed what
  let d ← get
  if d.remaining < n then
    throw (.bounds .signature d.offset (s!"{n} " ++ things ++ " exceed the blob" : String))
  return n

/-- The results of a step taken `n` times. -/
def times {α : Type} (step : Decode α) : Nat → Decode (List α)
  | 0 => return []
  | n + 1 => do
    let a ← step
    return a :: (← times step n)

/-! ## Method signatures -/

/-- Where a method signature is written. Stand-alone ones have no generic count, and may use
the unmanaged convention. -/
inductive Origin where
  /-- In the row of a method. -/
  | methodDef
  /-- In a reference to a method, or in a function pointer. -/
  | memberRef
  /-- In a row of its own. -/
  | standAlone
deriving DecidableEq

/-- Whether a convention may stand in a method signature. -/
def conventionAllowed (origin : Origin) (convention : Nat) : Bool :=
  convention ≤ 5 || (convention = 9 && origin = .standAlone)

/-- The lead byte, the counts and what they say. -/
def methodHead (origin : Origin) : Decode MethodHead := do
  let at_ ← offset
  let lead := (← byte "method signature").toNat
  let convention := lead % 16
  if !conventionAllowed origin convention then
    throw (.format .signature at_ ("invalid method signature lead byte 0x" ++ hexPad 2 lead : String))
  let generic := lead.testBit 4
  let genericCount ← if generic && origin ≠ .standAlone then
      some <$> compressed "generic parameter count"
    else pure none
  let paramCount ← count "parameter count" "parameters"
  return {
    hasThis := lead.testBit 5
    explicitThis := lead.testBit 6
    convention, generic, genericCount, paramCount }

/-- The parameters read so far. -/
structure ParamScan where
  /-- The types in order. -/
  types : List TypeSig
  /-- The number of types before the sentinel. -/
  sentinel : Option Nat

/-- No parameter read. -/
def ParamScan.none : ParamScan := ⟨[], .none⟩

/-- Passes over a sentinel in front of the next parameter. There may be one among all. -/
def passSentinel (scan : ParamScan) (d : Decoder) : Except Fault Unit × ParamScan × Decoder :=
  match d.rest with
  | b :: _ =>
    if b.toNat ≠ Element.sentinel then (.ok (), scan, d)
    else if scan.sentinel.isSome then
      (.error (.format .signature d.offset "second vararg sentinel"), scan, d)
    else (.ok (), { scan with sentinel := some scan.types.length }, d.advance 1)
  | [] => (.error (readFault .unexpectedEnd d.offset "parameter"), scan, d)

/-- Reads `n` more parameters. What was read before a fault is kept. -/
def params (readType : Decode TypeSig) :
    Nat → ParamScan → Decoder → Except Fault Unit × ParamScan × Decoder
  | 0, scan, d => (.ok (), scan, d)
  | n + 1, scan, d =>
    -- A second look finds the parameter behind a sentinel, or a second sentinel.
    match passSentinel scan d with
    | (.error f, scan, d) => (.error f, scan, d)
    | (.ok (), scan', d') =>
      match (if scan'.sentinel == scan.sentinel then (.ok (), scan', d') else passSentinel scan' d') with
      | (.error f, scan, d) => (.error f, scan, d)
      | (.ok (), scan, d) =>
        match readType d with
        | .error f d => (.error f, scan, d)
        | .ok t d => params readType n { scan with types := scan.types ++ [t] } d

/-! ## Types -/

/-- How deep types may nest. -/
def maxLevels : Nat := 64

/-- A list of numbers after their count. -/
def counted {α : Type} (what things : String) (step : Decode α) : Decode (List α) := do
  times step (← count what things)

/-- A type that is introduced by `tag`, which was read at `at_`; `inner` reads the types inside,
void being allowed or not. -/
def typeBody (inner : Bool → Decode TypeSig) (allowVoid : Bool) (at_ tag : Nat) :
    Decode TypeSig := do
  match Primitive.ofCode? tag with
  | some .void =>
    if allowVoid then return .prim .void
    else throw (.format .signature at_ "void is not valid here")
  | some .systemType => invalid
  | some p => return .prim p
  | none =>
    if tag = Element.classType then return .named (← token) false
    else if tag = Element.valueType then return .named (← token) true
    else if tag = Element.genericInst then
      let at_ ← offset
      let flag := (← byte "generic instance").toNat
      if flag ≠ Element.classType ∧ flag ≠ Element.valueType then
        throw (.format .signature at_
          ("generic instance of element type 0x" ++ hexPad 2 flag : String))
      let tok ← token
      let args ← counted "generic argument count" "generic arguments" (inner false)
      return .inst tok (flag = Element.valueType) args
    else if tag = Element.ptr then return .pointer (← inner true)
    else if tag = Element.byRef then return .byRef (← inner false)
    else if tag = Element.szArray then return .szArray (← inner false)
    else if tag = Element.pinned then return .pinned (← inner false)
    else if tag = Element.required ∨ tag = Element.optional then
      -- A modified type may be void where the type itself may.
      let tok ← token
      return .modified (tag = Element.required) tok (← inner allowVoid)
    else if tag = Element.array then
      let elem ← inner false
      let rank ← compressed "array rank"
      let sizes ← counted "array size count" "array sizes" (compressed "array size")
      let lower ← counted "array bound count" "array bounds" signed
      return .array elem rank sizes lower
    else if tag = Element.fnPtr then
      let head ← methodHead .memberRef
      let ret ← inner true
      let before ← get
      match params (inner false) head.paramCount .none before with
      | (.error f, _, d) => set d; throw f
      | (.ok (), scan, d) =>
        set d
        -- The bytes of the parameters are kept beside their types.
        return .fnPtr head ret scan.types scan.sentinel true
          (before.rest.take (d.offset - before.offset))
    else if tag = Element.typeVar then return .typeVar (← compressed "generic parameter index")
    else if tag = Element.methodVar then return .methodVar (← compressed "generic parameter index")
    else invalid
where
  /-- The fault of a tag that introduces no type. -/
  invalid : Decode TypeSig :=
    throw (.format .signature at_ ("invalid element type 0x" ++ hexPad 2 tag : String))

/-- A type that may nest `levels` deep. -/
def typeWithin : (levels : Nat) → (allowVoid : Bool) → Decode TypeSig
  | 0, _ => do
    throw (.format .signature (← offset) s!"type nesting exceeds {maxLevels} levels")
  | levels + 1, allowVoid => do
    let at_ ← offset
    let tag := (← byte "element type").toNat
    typeBody (fun v => typeWithin levels v) allowVoid at_ tag

/-- A type, void being allowed or not. -/
def type (allowVoid : Bool) : Decode TypeSig := typeWithin maxLevels allowVoid

/-- The result of a decoding step on a whole blob. -/
def onBlob {α : Type} (step : Decode α) (blob : List UInt8) : Except Fault α :=
  match step (Decoder.start blob) with
  | .ok a _ => .ok a
  | .error f _ => .error f

end Decode

end ManagedImage
