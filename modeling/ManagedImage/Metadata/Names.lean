/-
Names of types, members and assemblies.

A type's name is its namespace and name joined by a dot; a nested type follows
the type that encloses it after a plus sign. The chain of enclosing types comes
from the image and may be cyclic, so it is followed at most sixty-four steps.
-/
import ManagedImage.Metadata.Ownership

set_option autoImplicit false

namespace ManagedImage

/-- What identifies an assembly. -/
structure AssemblyName where
  /-- The simple name. -/
  name : Text
  /-- Major, minor, build and revision number. -/
  version : List Nat
  /-- The culture; empty for none. -/
  culture : Text

/-- How an assembly name is shown. -/
def AssemblyName.render (a : AssemblyName) : Text :=
  a.name ++ ", Version=" ++ (".".intercalate (a.version.map toString) : Text) ++ ", Culture="
    ++ (if a.culture.isEmpty then ("neutral" : Text) else a.culture)

/-- Namespace and name as one. -/
def qualify (space name : Text) : Text :=
  if space.isEmpty then name else space ++ "." ++ name

/-- The last position of a byte in a list. -/
def lastIndexOf? (b : UInt8) (bs : List UInt8) : Option Nat :=
  (bs.reverse.findIdx? (· = b)).map fun i => bs.length - 1 - i

/-- Namespace and rest of a full type name: split at the last dot before any nesting mark. -/
def splitTypeName (full : Text) : Text × Text :=
  let bs := full.toList
  match lastIndexOf? 0x2E (bs.takeWhile (· ≠ 0x2B)) with
  | some i => (Text.ofList (bs.take i), Text.ofList (bs.drop (i + 1)))
  | none => (Text.empty, full)

namespace Image

/-- How many enclosing types are followed. -/
def maxNesting : Nat := 64

/-! ## Assemblies -/

/-- The name in a row of one of the assembly tables, whose columns start at different places. -/
def assemblyNameAt (img : Image) (t : Table) (row version name culture : Nat) :
    Except Fault AssemblyName := do
  let n ← img.strings.get (t.cell row name)
  let c ← img.strings.get (t.cell row culture)
  return ⟨n, (List.range 4).map fun i => t.cell row (version + i), c⟩

/-- The name of the assembly this image defines. -/
def assemblyName (img : Image) : Except Fault AssemblyName :=
  let t := img.table .assembly
  if t.rows = 0 then
    .error (.unsupported .metadata Fault.noOffset
      "image has no assembly manifest (multi-module assembly)")
  else img.assemblyNameAt t 1 1 7 8

/-- The name of a referenced assembly. -/
def assemblyRefName (img : Image) (row : Nat) : Except Fault AssemblyName :=
  let t := img.table .assemblyRef
  if t.hasRow row then img.assemblyNameAt t row 0 6 7 else .error (t.rowFault row)

/-! ## Types -/

/-- The type, defined or referenced, that a type's name continues; nil where the name starts. -/
def outerType (img : Image) (t : TableId) (row : Nat) : Except Fault Token :=
  match t with
  | .typeDef =>
    let outer := img.enclosing row
    .ok (if outer = 0 then Token.null else Token.make .typeDef outer)
  | _ => do
    let scope ← CodedKind.resolutionScope.decode ((img.table .typeRef).cell row 0)
    return if scope.table? = some .typeRef && !scope.isNil then scope else Token.null

/-- A type's own part of its name. -/
def ownTypeName (img : Image) (t : TableId) (row : Nat) : Except Fault Text := do
  let name ← img.strings.get ((img.table t).cell row 1)
  let space ← img.strings.get ((img.table t).cell row 2)
  return qualify space name

/-- The name of a type; `steps` more types may enclose it. -/
def typeNameWithin (img : Image) : (steps : Nat) → Token → Except Fault Text
  | 0, tok => .error (.format .table Fault.noOffset ("type nesting too deep at " ++ tok.render : String))
  | steps + 1, tok =>
    if !img.hasRow tok then .error (tokenRangeFault tok)
    else match tok.table? with
      | some .typeDef => do
        let own ← img.ownTypeName .typeDef tok.row
        -- A row that encloses is named by a 32-bit cell, of which a token keeps 24 bits.
        if img.enclosing tok.row = 0 then return own
        let outer ← img.typeNameWithin steps (← img.outerType .typeDef tok.row)
        return outer ++ "+" ++ own
      | some .typeRef => do
        let own ← img.ownTypeName .typeRef tok.row
        let scope ← img.outerType .typeRef tok.row
        if scope.isNil then return own
        let outer ← img.typeNameWithin steps scope
        return outer ++ "+" ++ own
      | _ => .error (.invalidInput .table (tok.render ++ " is not a TypeDef or TypeRef" : String))

/-- The full name of a defined or referenced type. -/
def typeName (img : Image) (tok : Token) : Except Fault Text :=
  img.typeNameWithin (maxNesting + 1) tok

/-- The assembly that a type comes from; `steps` more references may be followed. -/
def definingAssemblyWithin (img : Image) : (steps : Nat) → Token → Except Fault AssemblyName
  | steps, tok =>
    if tok.table? ≠ some .typeRef then img.assemblyName
    else match steps with
      | 0 => .error (.format .table Fault.noOffset
          ("resolution scope chain too deep at " ++ tok.render : String))
      | steps + 1 => do
        let scope ← CodedKind.resolutionScope.decode ((img.table .typeRef).cell tok.row 0)
        match scope.table? with
        | some .assemblyRef => img.assemblyRefName scope.row
        | some .moduleRef => .error (.unsupported .table Fault.noOffset
            (tok.render ++ " is scoped to a module reference (multi-module assembly)" : String))
        | some .typeRef =>
          if scope.isNil then img.assemblyName else img.definingAssemblyWithin steps scope
        | _ => img.assemblyName

/-- The assembly that a type comes from. -/
def definingAssembly (img : Image) (tok : Token) : Except Fault AssemblyName :=
  img.definingAssemblyWithin (maxNesting + 1) tok

/-- The name of a type followed by its assembly. -/
def qualifiedName (img : Image) (tok : Token) : Except Fault Text := do
  let name ← img.typeName tok
  let assembly ← img.definingAssembly tok
  return name ++ ", " ++ assembly.render

/-- The defined type with a full name, nil if there is none. A type that cannot be named ends
the search. -/
def findType (img : Image) (full : Text) : Except Fault Token :=
  go ((img.table .typeDef).rowNumbers.map (Token.make .typeDef))
where
  go : List Token → Except Fault Token
    | [] => .ok Token.null
    | tok :: rest => do if (← img.typeName tok) = full then return tok else go rest

/-! ## Members -/

/-- The column that holds the name of a member. -/
def memberNameColumn? : TableId → Option Nat
  | .methodDef => some 3
  | .field | .memberRef => some 1
  | _ => none

/-- The fault of a token that is no member. -/
def notMember (tok : Token) : Fault :=
  .invalidInput .table (tok.render ++ " is not a member" : String)

/-- The name of a member that carries its own name. -/
def ownMemberName (img : Image) (tok : Token) : Except Fault Text :=
  if !img.hasRow tok then .error (tokenRangeFault tok)
  else match tok.table? with
    | some t => match memberNameColumn? t with
      | some col => img.strings.get ((img.table t).cell tok.row col)
      | none => .error (notMember tok)
    | none => .error (notMember tok)

/-- The method that a method instantiation instantiates. -/
def instantiated (img : Image) (row : Nat) : Except Fault Token :=
  CodedKind.methodDefOrRef.decode ((img.table .methodSpec).cell row 0)

/-- The name of a member. -/
def memberName (img : Image) (tok : Token) : Except Fault Text :=
  if img.hasRow tok && tok.table? = some .methodSpec then do
    img.ownMemberName (← img.instantiated tok.row)
  else img.ownMemberName tok

/-- The type a member belongs to, as far as the image says. -/
def memberParent (img : Image) (tok : Token) : Except Fault Token :=
  if tok.table? = some .memberRef then
    CodedKind.memberRefParent.decode ((img.table .memberRef).cell tok.row 0)
  else img.declaring tok

/-- Type and name of a member that carries its own name. -/
def ownFullMemberName (img : Image) (tok : Token) : Except Fault Text := do
  let name ← img.ownMemberName tok
  let parent ← img.memberParent tok
  match parent.table? with
  | some .typeDef | some .typeRef =>
    if parent.isNil then return name
    return (← img.typeName parent) ++ "::" ++ name
  | _ => return name

/-- Type and name of a member. -/
def fullMemberName (img : Image) (tok : Token) : Except Fault Text :=
  if img.hasRow tok && tok.table? = some .methodSpec then do
    img.ownFullMemberName (← img.instantiated tok.row)
  else img.ownFullMemberName tok

/-! ## What a token is -/

/-- The low four bits of the first signature byte of a member reference. -/
def memberRefLead? (img : Image) (tok : Token) : Option Nat :=
  let t := img.table .memberRef
  if t.hasRow tok.row then
    match img.blobs.get (t.cell tok.row 2) with
    | .ok sig => if sig.size = 0 then none else some ((byteAt sig 0).toNat % 16)
    | .error _ => none
  else none

/-- The low bits that mark a field signature. -/
def fieldLead : Nat := 6

/-- Whether a token names a field. -/
def isField (img : Image) (tok : Token) : Bool :=
  match tok.table? with
  | some .field => true
  | some .memberRef => img.memberRefLead? tok == some fieldLead
  | _ => false

/-- Whether a token names a method. -/
def isMethod (img : Image) (tok : Token) : Bool :=
  match tok.table? with
  | some .methodDef | some .methodSpec => true
  | some .memberRef => (img.memberRefLead? tok).any (· ≠ fieldLead)
  | _ => false

/-- Whether a token is a defined type whose base makes it a value type. A type of another
assembly cannot be decided and counts as none. -/
def isValueType (img : Image) (tok : Token) : Bool :=
  if tok.table? = some .typeDef && img.hasRow tok then
    match CodedKind.typeDefOrRef.decode ((img.table .typeDef).cell tok.row 3) with
    | .error _ => false
    | .ok base =>
      if base.isNil then false
      else match img.typeName base with
        | .error _ => false
        | .ok name =>
          if name = "System.Enum" then true
          else name = "System.ValueType" && (img.typeName tok).toOption != some "System.Enum"
  else false

end Image

end ManagedImage
