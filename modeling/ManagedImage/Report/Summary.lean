/-
The summary of an image: what it is, its streams and tables, and every type with
its methods.

A summary is made to be written down and read back, so its numbers have the
widths of the written form. Making one is forgiving: a name, a signature or a
body that cannot be decoded leaves its field empty, and the rest is reported all
the same. Only a type whose members cannot be told apart from its neighbours'
stops the summary.
-/
import ManagedImage.Signature.Lookup
import ManagedImage.Code.Body

set_option autoImplicit false

namespace ManagedImage.Report

/-- A stream of the metadata root. -/
structure StreamEntry where
  /-- Its name. -/
  name : Text
  /-- Where it starts. -/
  offset : UInt32
  /-- How long it is. -/
  size : UInt32
deriving DecidableEq

/-- A table that has rows. -/
structure TableEntry where
  /-- Its name. -/
  name : Text
  /-- How many rows it has. -/
  rows : UInt32
  /-- Whether it is marked as sorted. -/
  sorted : Bool
deriving DecidableEq

/-- A method of a type. -/
structure MethodEntry where
  /-- Its token. -/
  token : Token
  /-- Its name. -/
  name : Text
  /-- Its signature, spelled with names. -/
  signature : Text
  /-- The address of its body, zero if it has none. -/
  rva : UInt32
  /-- How many bytes of code it has. -/
  codeSize : Int64
  /-- How deep its stack may get. -/
  maxStack : Int64
  /-- How many exception handlers it has. -/
  clauses : Int64
deriving DecidableEq

/-- A type definition. -/
structure TypeEntry where
  /-- Its token. -/
  token : Token
  /-- Its name. -/
  name : Text
  /-- The name of its base type, empty if it has none. -/
  base : Text
  /-- How many fields it has. -/
  fields : Int64
  /-- Its methods. -/
  methods : List MethodEntry
deriving DecidableEq

/-- An overview of an image. A list that was never started is told apart from an empty one. -/
structure Summary where
  /-- Where the image was opened from. -/
  path : Text
  /-- The display name of its assembly, empty for a bare module. -/
  assembly : Text
  /-- The version text of the metadata root. -/
  version : Text
  /-- The version of the table stream. -/
  tableStream : Text
  /-- Whether the executable is of the 64-bit form. -/
  is64 : Bool
  /-- The entry point, empty for a library. -/
  entryPoint : Text
  /-- The streams. -/
  streams : Option (List StreamEntry)
  /-- The tables that have rows. -/
  tables : Option (List TableEntry)
  /-- The types. -/
  types : Option (List TypeEntry)
  /-- How many string literals there are. -/
  literals : Int64
deriving DecidableEq

/-- A list that is there only if it has members. -/
def started {α : Type} (xs : List α) : Option (List α) := if xs.isEmpty then none else some xs

theorem getD_started {α : Type} (xs : List α) : (started xs).getD [] = xs := by
  cases xs <;> rfl

/-- The value, or the empty text. -/
def orEmpty : Except Fault Text → Text
  | .ok t => t
  | .error _ => Text.empty

/-! ## Methods -/

/-- The parts of a method that do not depend on its body. -/
def MethodEntry.heading (img : Image) (tok : Token) : MethodEntry where
  token := tok
  name := orEmpty (img.memberName tok)
  signature := orEmpty ((img.methodSig tok).map img.methodText)
  rva := 0
  codeSize := 0
  maxStack := 0
  clauses := 0

/-- The address of a method's body, zero if it has none. -/
def bodyAddress (img : Image) (tok : Token) : Nat :=
  match (img.table .methodDef).cursor.goto tok.row with
  | .ok c => c.value 0
  | .error _ => 0

/-- The entry of a method; a body that cannot be read leaves only its address. -/
def MethodEntry.ofImage (img : Image) (tok : Token) : MethodEntry :=
  let entry := MethodEntry.heading img tok
  let rva := bodyAddress img tok
  if rva = 0 then entry
  else
    let placed := { entry with rva := UInt32.ofNat rva }
    match img.bodyAt rva with
    | .error _ => placed
    | .ok b =>
      { placed with
        codeSize := Int64.ofNat b.code.length
        maxStack := Int64.ofNat b.maxStack
        clauses := Int64.ofNat b.clauses.length }

/-! ## Types -/

/-- The name of the base type in a row of type definitions. -/
def baseName (img : Image) (row : Nat) : Text :=
  match CodedKind.typeDefOrRef.decode ((img.table .typeDef).cell row 3) with
  | .ok base => if base.isNil then Text.empty else orEmpty (img.typeName base)
  | .error _ => Text.empty

/-- The entry of a row of type definitions. -/
def TypeEntry.ofImage (img : Image) (row : Nat) : Except Fault TypeEntry := do
  let tok := Token.make .typeDef row
  let fields ← img.fieldRange tok.row
  let methods ← img.methodRange tok.row
  return {
    token := tok
    name := orEmpty (img.typeName tok)
    base := baseName img row
    fields := Int64.ofNat fields.size
    methods := methods.tokens.map (MethodEntry.ofImage img) }

/-- The entry of a row, with the row named in a fault. -/
def TypeEntry.summarized (img : Image) (row : Nat) : Except Fault TypeEntry :=
  match TypeEntry.ofImage img row with
  | .ok entry => .ok entry
  | .error f =>
    .error (.context
      ("export: failed to summarize " ++ (Token.make .typeDef row).render ++ ": " : String) f)

/-! ## The whole -/

/-- The version of the table stream: major and minor number with a point between. -/
def tableStreamText (img : Image) : Text :=
  (toString img.head.major ++ "." ++ toString img.head.minor : String)

/-- The summary of an image. -/
def Summary.ofImage (img : Image) : Except Fault Summary := do
  let types ← (img.table .typeDef).rowNumbers.mapM (TypeEntry.summarized img)
  return {
    path := img.path
    assembly := orEmpty (img.assemblyName.map AssemblyName.render)
    version := img.version
    tableStream := tableStreamText img
    is64 := img.file.is64
    entryPoint := if img.entryPoint.isNil then Text.empty else img.entryPoint.render
    streams := started (img.streams.headers.map fun h =>
      ⟨h.name, UInt32.ofNat h.offset, UInt32.ofNat h.size⟩)
    tables := started (img.presentTables.map fun t =>
      ⟨t.id.name, UInt32.ofNat t.rows, t.sorted⟩)
    types := started types
    literals := Int64.ofNat img.literals.entries.length }

end ManagedImage.Report
