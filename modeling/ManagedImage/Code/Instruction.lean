/-
Instructions: an operation, its operand and where they stand.

A jump distance counts from the end of its instruction; decoding turns it into
the place it leads to, which need not lie in the code. `Instruction.read` looks
at the bytes from the instruction on, so that what it finds depends on nothing
before them but the offset.
-/
import ManagedImage.Code.Opcode
import ManagedImage.Bytes.Word
import ManagedImage.Number.Shortest
import ManagedImage.Metadata.Token
import ManagedImage.Fault

set_option autoImplicit false

namespace ManagedImage

/-- How a place in the code is shown. -/
def targetText (t : Int) : String := "IL_" ++ hexIntPadUpper 4 t

/-! ## Operands -/

/-- The operand of an instruction. -/
inductive Operand where
  /-- No operand. -/
  | none
  /-- A number, or the number of a variable. -/
  | int (v : Int)
  /-- A floating-point number, as its eight-byte pattern. -/
  | float (bits : Nat)
  /-- A token. -/
  | token (t : Token)
  /-- A place to jump to. -/
  | target (t : Int)
  /-- The places a jump table leads to. -/
  | targets (ts : List Int)
deriving DecidableEq, Repr

namespace Operand

/-- Constants from a ten-thousandth up to a million are written positionally, and powers of ten
with two digits at least. -/
def constantLayout : DecimalLayout := ⟨-4, 5, 2⟩

/-- How an operand is shown. -/
def render : Operand → String
  | .none => ""
  | .int v => decimal v
  | .float bits => constantLayout.renderValue (BinaryFormat.double.value bits)
  | .token t => t.render
  | .target t => targetText t
  | .targets ts => "(" ++ ", ".intercalate (ts.map targetText) ++ ")"

/-- The number, zero for any other operand. -/
def toInt : Operand → Int
  | .int v => v
  | _ => 0

/-- The token, nil for any other operand. -/
def toToken : Operand → Token
  | .token t => t
  | _ => Token.null

/-- Where the operand leads. -/
def places : Operand → List Int
  | .target t => [t]
  | .targets ts => ts
  | _ => []

/-- The operand that a word stands for, in an instruction that ends at `next`. -/
def ofWord (kind : OperandKind) (next : Nat) (word : Nat) : Operand :=
  match kind with
  | .none | .phi => .none
  | .shortTarget => .target (next + signedWord 8 word)
  | .target => .target (next + signedWord 32 word)
  | .shortInt => .int (signedWord 8 word)
  | .shortVar | .var => .int word
  | .int => .int (signedWord 32 word)
  | .long => .int (signedWord 64 word)
  | .single => .float (widen word)
  | .double => .float word
  | .field | .method | .signature | .string | .token | .type => .token (Token.ofNat word)
  | .switch => .targets []

/-- The places that a jump table of `n` entries leads to, in an instruction that ends at `next`. -/
def table (next : Nat) : Nat → List UInt8 → List Int
  | 0, _ => []
  | n + 1, bs => (next + signedWord 32 (leNat (bs.take 4))) :: table next n (bs.drop 4)

end Operand

/-! ## Instructions -/

/-- An instruction at its place in the code. -/
structure Instruction where
  /-- Where it starts. -/
  offset : Nat
  /-- What it does. -/
  op : Opcode
  /-- How many bytes it takes. -/
  size : Nat
  /-- What it works with. -/
  operand : Operand
deriving DecidableEq, Repr

namespace Instruction

/-- What stands for the current instruction before there is one. -/
def blank : Instruction := ⟨0, .nop, 0, .none⟩

instance : Inhabited Instruction := ⟨blank⟩

/-- Where the next instruction starts. -/
def next (i : Instruction) : Nat := i.offset + i.size

/-- How an instruction is shown. -/
def render (i : Instruction) : String :=
  let operand := i.operand.render
  targetText i.offset ++ ": " ++ i.op.name ++ (if operand.isEmpty then "" else " " ++ operand)

/-! ## Decoding -/

/-- The fault of an offset at which no instruction can start. -/
def outside (offset : Int) : Fault := .bounds .code offset "instruction offset past end of code"

/-- Whether at least `n` elements follow. -/
def hasAtLeast {α : Type} (n : Nat) (xs : List α) : Bool := (xs.take n).length = n

/-- The instruction of an operation from the bytes that follow it. -/
def readOperand (offset : Nat) (op : Opcode) (rest : List UInt8) : Except Fault Instruction :=
  let kind := op.operand
  if !hasAtLeast kind.size rest then
    .error (.located .code .outOfBounds offset
      ("truncated " ++ kind.name ++ " operand of " ++ op.name : String)
      (some (.bytes .unexpectedEnd)))
  else
    let word := leNat (rest.take kind.size)
    let size := op.size + kind.size
    if kind = .switch then
      let entries := rest.drop kind.size
      if !hasAtLeast (4 * word) entries then
        .error (.bounds .code (offset + op.size : Nat) s!"switch with {word} targets exceeds the code")
      else
        -- The targets count from behind the table.
        let size := size + 4 * word
        .ok ⟨offset, op, size, .targets (Operand.table (offset + size) word entries)⟩
    else .ok ⟨offset, op, size, .ofWord kind (offset + size) word⟩

/-- The instruction of an operation's number from the bytes that follow it. -/
def readCode (offset code : Nat) (rest : List UInt8) : Except Fault Instruction :=
  match Opcode.ofCode? code with
  | some op => readOperand offset op rest
  | none => .error (.format .code offset ("unassigned opcode " ++ Opcode.numberText code : String))

/-- The instruction at the front of the bytes, which stand at an offset. -/
def read (offset : Nat) : List UInt8 → Except Fault Instruction
  | [] => .error (outside offset)
  | b :: rest =>
    if b.toNat = Opcode.leadByte then
      match rest with
      | [] => .error (.bounds .code offset "truncated two-byte opcode")
      | second :: rest => readCode offset (Opcode.leadByte * 256 + second.toNat) rest
    else readCode offset b.toNat rest

/-- The instruction at an offset. -/
def decode (code : List UInt8) (offset : Nat) : Except Fault Instruction :=
  read offset (code.drop offset)

/-- The instruction at an offset that may lie before the code. -/
def decodeAt (code : List UInt8) (offset : Int) : Except Fault Instruction :=
  if offset < 0 then .error (outside offset) else decode code offset.toNat

/-! ## Normal form -/

/-- The instruction without abbreviation: a short form becomes the operation it stands for, its
operand explicit. Place and size stay those of the short form. -/
def normalize (i : Instruction) : Instruction :=
  match i.op.implied? with
  | some (op, v) => { i with op, operand := .int v }
  | none => match i.op.longForm? with
    | some op => { i with op }
    | none => i

/-! ## Sweeping -/

/-- The instructions from an offset on in order of their places, and what is wrong with the one
after the last. -/
def sweep (code : List UInt8) (offset : Nat) : List Instruction × Option Fault :=
  if offset < code.length then
    match decode code offset with
    | .error f => ([], some f)
    | .ok i =>
      if _h : offset < i.next then
        let (rest, fault) := sweep code i.next
        (i :: rest, fault)
      else ([i], none)
  else ([], none)
termination_by code.length - offset

/-- All instructions of the code, if every one can be decoded. -/
def sweepAll (code : List UInt8) : Except Fault (List Instruction) :=
  match sweep code 0 with
  | (is, none) => .ok is
  | (_, some f) => .error f

end Instruction

end ManagedImage
