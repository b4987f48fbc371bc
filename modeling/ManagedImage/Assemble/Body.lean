/-
Writing method bodies.

A body has a tiny header of one byte, for up to sixty-three bytes of code, or a
fat one of twelve. Sections with exception clauses may follow a fat body, each
on a boundary of four bytes; a clause takes twelve bytes in a small section and
twenty-four in a fat one, and a value too large for its field is cut.
-/
import ManagedImage.Bytes.Word

set_option autoImplicit false

namespace ManagedImage.Assemble

/-- A step of assembling that cannot be done. -/
inductive BuildFault where
  /-- A row with the wrong number of cells. -/
  | columnCount
  /-- Code too long for a tiny header. -/
  | tinyTooLarge
  /-- A table that a coded index cannot refer to. -/
  | notCoded
deriving DecidableEq, Repr

/-- How a build fault is said. -/
def BuildFault.message : BuildFault → String
  | .columnCount => "testasm: column count mismatch"
  | .tinyTooLarge => "testasm: tiny body too large"
  | .notCoded => "testasm: table not in coded index"

/-- An exception clause to write. -/
structure RawClause where
  /-- The kind of clause. -/
  flags : Nat
  /-- Where the protected code starts. -/
  tryOffset : Nat
  /-- The length of the protected code. -/
  tryLength : Nat
  /-- Where the handler starts. -/
  handlerOffset : Nat
  /-- The length of the handler. -/
  handlerLength : Nat
  /-- The caught type, or where the filter starts. -/
  extra : Nat

namespace RawClause

/-- A clause of a small section. -/
def small (c : RawClause) : List UInt8 :=
  leBytes 2 c.flags ++ leBytes 2 c.tryOffset ++ leBytes 1 c.tryLength
    ++ leBytes 2 c.handlerOffset ++ leBytes 1 c.handlerLength ++ leBytes 4 c.extra

/-- A clause of a fat section. -/
def fat (c : RawClause) : List UInt8 :=
  leBytes 4 c.flags ++ leBytes 4 c.tryOffset ++ leBytes 4 c.tryLength
    ++ leBytes 4 c.handlerOffset ++ leBytes 4 c.handlerLength ++ leBytes 4 c.extra

end RawClause

/-- A section of clauses; `more` says that another one follows. -/
def clauseSection (clauses : List RawClause) (fat more : Bool) : List UInt8 :=
  let kind := 0x01 + (if more then 0x80 else 0) + (if fat then 0x40 else 0)
  if fat then
    leBytes 1 kind ++ leBytes 3 (4 + 24 * clauses.length) ++ clauses.flatMap RawClause.fat
  else
    leBytes 1 kind ++ leBytes 1 (4 + 12 * clauses.length) ++ zeroBytes 2
      ++ clauses.flatMap RawClause.small

/-- A body with a tiny header. -/
def tinyBody (code : List UInt8) : Except BuildFault (List UInt8) :=
  if 64 ≤ code.length then .error .tinyTooLarge
  else .ok (UInt8.ofNat (code.length * 4 + 2) :: code)

/-- A fat header; `more` says that sections follow the code. -/
def fatHeader (maxStack locals : Nat) (initLocals more : Bool) (codeSize : Nat) : List UInt8 :=
  leBytes 2 (0x3003 + (if initLocals then 0x10 else 0) + (if more then 0x08 else 0))
    ++ leBytes 2 maxStack ++ leBytes 4 codeSize ++ leBytes 4 locals

/-- A body with a fat header, and one section if there are clauses. -/
def fatBody (maxStack locals : Nat) (initLocals : Bool) (code : List UInt8)
    (clauses : List RawClause) (fatClauses : Bool) : List UInt8 :=
  let body := fatHeader maxStack locals initLocals (!clauses.isEmpty) code.length ++ code
  if clauses.isEmpty then body else padTo 4 body ++ clauseSection clauses fatClauses false

/-- A piece of a body. -/
inductive BodyPart where
  /-- Bytes as they are. -/
  | raw (bytes : List UInt8)
  /-- A body with a tiny header. -/
  | tiny (code : List UInt8)
  /-- A body with a fat header. -/
  | fat (maxStack locals : Nat) (initLocals : Bool) (code : List UInt8)
      (clauses : List RawClause) (fatClauses : Bool)
  /-- A section of clauses. -/
  | handlers (clauses : List RawClause) (fat more : Bool)

/-- The bytes of a piece. -/
def BodyPart.encode : BodyPart → Except BuildFault (List UInt8)
  | .raw bytes => .ok bytes
  | .tiny code => tinyBody code
  | .fat maxStack locals init code clauses fatClauses =>
    .ok (fatBody maxStack locals init code clauses fatClauses)
  | .handlers clauses wide more => .ok (clauseSection clauses wide more)

/-- The bytes of all pieces, one after the other. -/
def encodeBody (parts : List BodyPart) : Except BuildFault (List UInt8) := do
  return (← parts.mapM BodyPart.encode).flatten

end ManagedImage.Assemble
