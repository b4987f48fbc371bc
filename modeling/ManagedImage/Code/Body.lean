/-
Method bodies.

A body starts with a header. The tiny form is one byte with the length of the
code; the fat form names the size of the stack, the local variables and whether
data sections follow the code. Each section starts at an address that is a
multiple of four and has a small or a large layout; those with handlers list
the protected regions.
-/
import ManagedImage.Signature.Lookup

set_option autoImplicit false

namespace ManagedImage

/-! ## Handlers -/

/-- What a handler is for. -/
inductive ClauseKind where
  /-- Exceptions of a class. -/
  | catch
  /-- Exceptions that a piece of code selects. -/
  | filter
  /-- Every way out of the region. -/
  | finally
  /-- Every exceptional way out of the region. -/
  | fault
deriving DecidableEq, Repr

namespace ClauseKind

/-- The kind with a number. -/
def ofCode? : Nat → Option ClauseKind
  | 0 => some .catch
  | 1 => some .filter
  | 2 => some .finally
  | 4 => some .fault
  | _ => none

/-- The name of a kind. -/
def name : ClauseKind → String
  | .catch => "catch"
  | .filter => "filter"
  | .finally => "finally"
  | .fault => "fault"

/-- How the number of a kind is shown. -/
def numberText (n : Nat) : String :=
  match ofCode? n with
  | some k => k.name
  | none => s!"ClauseKind({n})"

end ClauseKind

/-- A protected region and its handler. -/
structure Clause where
  /-- What the handler is for; none for a number that means nothing. -/
  kind : Option ClauseKind
  /-- Where the region starts. -/
  tryOffset : Int
  /-- How long the region is. -/
  tryLength : Int
  /-- Where the handler starts. -/
  handlerOffset : Int
  /-- How long the handler is. -/
  handlerLength : Int
  /-- The class of the exceptions that are caught. -/
  classToken : Token
  /-- Where the selecting code starts. -/
  filterOffset : Int

/-! ## Bodies -/

/-- The code of a method with what its header says. -/
structure Body where
  /-- The address of the header. -/
  rva : Nat
  /-- Whether the header is of the fat form. -/
  fat : Bool
  /-- The number of bytes of the header. -/
  headerSize : Nat
  /-- How deep the stack may get. -/
  maxStack : Nat
  /-- Whether local variables start as zero. -/
  initLocals : Bool
  /-- The signature of the local variables. -/
  localsToken : Token
  /-- The code. -/
  code : List UInt8
  /-- The handlers in order. -/
  clauses : List Clause

namespace Body

/-- The stack depth of a tiny body. -/
def tinyStack : Nat := 8

/-- The least size of a fat header. -/
def fatHeader : Nat := 12

/-- Where the fields of a clause lie: flags, region, its length, handler, its length and the rest,
each with its width. -/
structure ClauseLayout where
  /-- The number of bytes of a clause. -/
  size : Nat
  /-- Offset and width of each field. -/
  fields : List (Nat × Nat)

/-- The small layout. -/
def smallLayout : ClauseLayout := ⟨12, [(0, 2), (2, 2), (4, 1), (5, 2), (7, 1), (8, 4)]⟩

/-- The large layout. -/
def largeLayout : ClauseLayout := ⟨24, [(0, 4), (4, 4), (8, 4), (12, 4), (16, 4), (20, 4)]⟩

/-- The clause at an offset of a section. -/
def readClause (g : Region) (l : ClauseLayout) (offset : Nat) : Except Fault Clause :=
  let fields : List Nat := l.fields.map fun (o, w) => g.wordD w (offset + o)
  let field (i : Nat) : Int := fields.getD i 0
  let flags := fields.getD 0 0
  match ClauseKind.ofCode? flags with
  | none => .error (.format .body (g.base + offset : Nat) ("invalid clause flags 0x" ++ hex flags : String))
  | some kind => .ok {
      kind := some kind
      tryOffset := field 1
      tryLength := field 2
      handlerOffset := field 3
      handlerLength := field 4
      classToken := if kind = .catch then Token.ofNat (fields.getD 5 0) else Token.null
      filterOffset := if kind = .filter then field 5 else 0 }

/-- Handlers are in sections of this kind. -/
def handlerSection : Nat := 0x01

/-- Whether a section's kind byte announces the large layout. -/
def isLarge (kind : Nat) : Bool := kind.testBit 6

/-- Whether another section follows one with this kind byte. -/
def hasMore (kind : Nat) : Bool := kind.testBit 7

/-- The clauses of a section. -/
def sectionClauses (sect : Region) (kind : Nat) : Except Fault (List Clause) :=
  if kind % 64 ≠ handlerSection then .ok []
  else
    let l := if isLarge kind then largeLayout else smallLayout
    (List.range ((sect.len - 4) / l.size)).mapM fun i => readClause sect l (4 + i * l.size)

/-- The number of bytes of the section at an offset, with its header. -/
def sectionSize (g : Region) (offset kind : Nat) : Except ByteFault Nat :=
  if isLarge kind then (· / 256) <$> g.u32 offset else g.u8 (offset + 1 : Nat)

/-- The section at an offset: its kind byte and its bytes. -/
def readSection (g : Region) (offset : Nat) : Except Fault (Nat × Region) :=
  let at_ : Int := (g.base + offset : Nat)
  match g.u8 offset with
  | .error _ => .error (.bounds .body at_ "missing data section")
  | .ok kind => match sectionSize g offset kind with
    | .error _ => .error (.bounds .body at_ "truncated section header")
    | .ok size =>
      if size < 4 then .error (.format .body at_ s!"data section of {size} bytes")
      else match g.sub offset size with
        | .error _ => .error (.bounds .body at_ s!"data section of {size} bytes exceeds the image")
        | .ok sect => .ok (kind, sect)

/-- The next offset whose address is a multiple of four. -/
def aligned (rva offset : Nat) : Nat := offset + (4 - (rva + offset) % 4) % 4

/-- The clauses of all sections from an offset on. A section takes four bytes at least, so there
are no more than `left` of them. -/
def readSections (g : Region) (rva : Nat) : (left offset : Nat) → Except Fault (List Clause)
  | 0, offset => .error (.bounds .body (g.base + aligned rva offset : Nat) "missing data section")
  | left + 1, offset => do
    let offset := aligned rva offset
    let (kind, sect) ← readSection g offset
    let clauses ← sectionClauses sect kind
    if hasMore kind then
      return clauses ++ (← readSections g rva left (offset + sect.len))
    return clauses

/-- A body with a fat header. -/
def readFat (g : Region) (rva : Nat) : Except Fault Body := do
  match g.u16 0 with
  | .error _ => throw (.bounds .body g.base "truncated fat header")
  | .ok flags =>
    let headerSize := flags / 4096 * 4
    if headerSize < fatHeader then
      throw (.format .body g.base s!"fat header size {headerSize} is below {fatHeader}")
    if g.len < headerSize then throw (.bounds .body g.base "truncated fat header")
    let codeSize := g.wordD 4 4
    if g.len - headerSize < codeSize then
      throw (.bounds .body g.base s!"code size {codeSize} exceeds the image")
    let stop := headerSize + codeSize
    let clauses ← if flags.testBit 3 then readSections g rva (g.len + 1) stop else pure []
    return {
      rva, headerSize, clauses
      fat := true
      maxStack := g.wordD 2 2
      initLocals := flags.testBit 4
      localsToken := Token.ofNat (g.wordD 4 8)
      code := (g.data.extract (g.base + headerSize) (g.base + stop)).data.toList }

/-- A body with a tiny header, whose first byte is given. -/
def readTiny (g : Region) (rva first : Nat) : Except Fault Body :=
  match g.slice 1 (first / 4 : Nat) with
  | .error _ => .error (.bounds .body g.base s!"tiny body of {first / 4} bytes exceeds the image")
  | .ok code => .ok {
      rva
      fat := false
      headerSize := 1
      maxStack := tinyStack
      initLocals := false
      localsToken := Token.null
      code := code.data.toList
      clauses := [] }

/-- The body at the start of a region. -/
def read (g : Region) (rva : Nat) : Except Fault Body :=
  match g.u8 0 with
  | .error _ => .error (.bounds .body g.base ("empty method body at RVA 0x" ++ hexPad 8 rva : String))
  | .ok first => match first % 4 with
    | 2 => readTiny g rva first
    | 3 => readFat g rva
    | form => .error (.format .body g.base ("invalid method header format 0x" ++ hex form : String))

end Body

namespace Image

/-- The body at an address. -/
def bodyAt (img : Image) (rva : Nat) : Except Fault Body :=
  match img.file.regionFrom rva with
  | .error f => .error (.context "il: failed to locate method body: " f)
  | .ok g => Body.read g rva

/-- The body of a method. -/
def body (img : Image) (row : Nat) : Except Fault Body := do
  if row = 0 then throw (.invalidInput .body "method row 0")
  let c ← (img.table .methodDef).cursor.goto row
  let rva := c.value 0
  if rva = 0 then throw (.invalidInput .body (c.token.render ++ " has no body" : String))
  img.bodyAt rva

/-- The types of the local variables of a body. -/
def bodyLocals (img : Image) (b : Body) : Except Fault (List TypeSig) :=
  if b.localsToken.isNil then .ok [] else img.localTypes b.localsToken

end Image

end ManagedImage
