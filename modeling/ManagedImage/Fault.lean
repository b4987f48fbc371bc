/-
What can go wrong, and how it is said.

A fault found while decoding says which decoder found it, what kind of fault it
is, where in the file or blob it lies when that is known, a sentence of detail,
and possibly the fault beneath it. Around such a fault stand the few others: a
read past the end of some bytes, a file that is missing, and a phrase put in
front of another fault.

The wording is in `Fault.message` and nowhere else. Matching looks at kind and
phase only, through the whole chain of causes.
-/
import ManagedImage.Text.Template

set_option autoImplicit false

namespace ManagedImage

/-- A read of raw bytes that could not be done. -/
inductive ByteFault where
  /-- Fewer bytes are left than were asked for. -/
  | unexpectedEnd
  /-- A position before the first byte. -/
  | negativeOffset
  /-- An index width that no table uses. -/
  | invalidWidth
  /-- A lead byte that starts no compressed integer. -/
  | badCompressed
deriving DecidableEq, Repr

/-- How a byte fault is said. -/
def ByteFault.message : ByteFault → String
  | .unexpectedEnd => "stream: unexpected end of data"
  | .negativeOffset => "stream: negative offset"
  | .invalidWidth => "stream: index width must be 2 or 4"
  | .badCompressed => "stream: invalid compressed integer"

/-- The decoder that found a fault; the empty name stands for none. -/
structure Phase where
  /-- The name shown in brackets. -/
  name : Text
deriving DecidableEq

namespace Phase

/-- Headers and sections of the executable. -/
def pe : Phase := ⟨"pe"⟩
/-- The metadata root and its streams. -/
def metadata : Phase := ⟨"metadata"⟩
/-- The string, blob, GUID and literal heaps. -/
def heap : Phase := ⟨"heap"⟩
/-- The metadata tables. -/
def table : Phase := ⟨"table"⟩
/-- Signature blobs. -/
def signature : Phase := ⟨"signature"⟩
/-- Method headers and their sections. -/
def body : Phase := ⟨"body"⟩
/-- Instruction streams. -/
def code : Phase := ⟨"il"⟩
/-- The simulated evaluation stack. -/
def stack : Phase := ⟨"stack"⟩

end Phase

/-- The coarse class of a fault, which callers match on. -/
structure Kind where
  /-- The name shown in messages. -/
  name : Text
deriving DecidableEq

namespace Kind

/-- Bytes that break the format. -/
def format : Kind := ⟨"format"⟩
/-- An index or range outside what it points into. -/
def outOfBounds : Kind := ⟨"out_of_bounds"⟩
/-- Something recognised that is not handled. -/
def unsupported : Kind := ⟨"unsupported"⟩
/-- A broken rule of the evaluation stack. -/
def stackShape : Kind := ⟨"stack_shape"⟩
/-- A question that makes no sense for what it was asked of. -/
def invalidInput : Kind := ⟨"invalid_input"⟩

/-- All kinds the library itself uses. -/
def all : List Kind := [format, outOfBounds, unsupported, stackShape, invalidInput]

end Kind

/-- A failure, with the chain of failures beneath it. -/
inductive Fault where
  /-- A sentence and nothing else. -/
  | plain (message : Text)
  /-- A failed read of raw bytes. -/
  | bytes (fault : ByteFault)
  /-- A generic parameter that no argument stands for. -/
  | missingInstantiation
  /-- A file that is not there. -/
  | notExist (message : Text)
  /-- The end of a file, met too early. -/
  | endOfFile
  /-- A fault of a decoder. A negative offset means that no place is known. -/
  | located (phase : Phase) (kind : Kind) (offset : Int) (detail : Text) (cause : Option Fault)
  /-- A phrase in front of another fault. -/
  | context (lead : Text) (cause : Fault)

instance : Inhabited Fault := ⟨.endOfFile⟩

namespace Fault

/-- The offset of a fault that is tied to no place. -/
def noOffset : Int := -1

/-! ## Wording -/

/-- The head of a decoder's fault: phase, kind, place and detail. -/
def headline (phase : Phase) (kind : Kind) (offset : Int) (detail : Text) : Text :=
  let phased := !phase.name.isEmpty
  (if phased then ("[" : Text) ++ phase.name ++ ("] " : Text) else Text.empty)
    ++ kind.name
    ++ (if phased && 0 ≤ offset then (" at 0x" ++ hex offset.toNat : Text) else Text.empty)
    ++ (if detail.isEmpty then Text.empty else (": " : Text) ++ detail)

/-- How a fault is said. -/
def message : Fault → Text
  | .plain m => m
  | .bytes b => b.message
  | .missingInstantiation => "signature: generic parameter without instantiation"
  | .notExist m => m
  | .endOfFile => "EOF"
  | .located p k o d none => headline p k o d
  | .located p k o d (some c) => headline p k o d ++ " (caused by: " ++ c.message ++ (")" : Text)
  | .context lead c => lead ++ c.message

/-! ## The chain of causes -/

/-- The fault directly beneath. -/
def cause? : Fault → Option Fault
  | .located _ _ _ _ c => c
  | .context _ c => some c
  | _ => none

/-- The fault and all faults beneath it, outermost first. -/
def chain : Fault → List Fault
  | .located p k o d none => [.located p k o d none]
  | .located p k o d (some c) => .located p k o d (some c) :: c.chain
  | .context lead c => .context lead c :: c.chain
  | f => [f]

/-- Whether this very fault is of the kind, and of the phase unless that is left open. -/
def matchesHere (phase : Phase) (kind : Kind) : Fault → Bool
  | .located p k _ _ _ => k = kind && (phase.name.isEmpty || p = phase)
  | _ => false

/-- Whether some fault of the chain is of the kind, and of the phase unless that is left open. -/
def isOf (f : Fault) (phase : Phase) (kind : Kind) : Bool :=
  f.chain.any (matchesHere phase kind)

/-- Whether a generic parameter without an argument is at the bottom of this. -/
def isMissingInstantiation (f : Fault) : Bool :=
  f.chain.any fun
    | .missingInstantiation => true
    | _ => false

/-- The kind of the outermost decoder fault in the chain. -/
def kind? (f : Fault) : Option Kind :=
  f.chain.findSome? fun
    | .located _ k _ _ _ => some k
    | _ => none

/-- The failed read of raw bytes in the chain. -/
def byteFault? (f : Fault) : Option ByteFault :=
  f.chain.findSome? fun
    | .bytes b => some b
    | _ => none

/-- Whether a missing file is in the chain. -/
def isNotExist (f : Fault) : Bool :=
  f.chain.any fun
    | .notExist _ => true
    | _ => false

/-- Whether an early end of file is in the chain. -/
def isEndOfFile (f : Fault) : Bool :=
  f.chain.any fun
    | .endOfFile => true
    | _ => false

/-! ## The usual faults -/

/-- Bytes that break the format. -/
def format (phase : Phase) (offset : Int) (detail : Text) : Fault :=
  .located phase .format offset detail none

/-- An index or range outside what it points into. -/
def bounds (phase : Phase) (offset : Int) (detail : Text) : Fault :=
  .located phase .outOfBounds offset detail none

/-- Something recognised that is not handled. -/
def unsupported (phase : Phase) (offset : Int) (detail : Text) : Fault :=
  .located phase .unsupported offset detail none

/-- A broken rule of the evaluation stack at a code offset. -/
def stackShape (offset : Int) (detail : Text) : Fault :=
  .located .stack .stackShape offset detail none

/-- A question that makes no sense for what it was asked of. -/
def invalidInput (phase : Phase) (detail : Text) : Fault :=
  .located phase .invalidInput noOffset detail none

/-- The fault with another place, for a decoder that knows where the bytes came from. -/
def relocated (offset : Int) : Fault → Fault
  | .located p k _ d c => .located p k offset d c
  | f => f

end Fault

end ManagedImage
