/-
Which rows belong to which.

An owner names only the first of its children; its run ends where the next
owner's begins, or after the last child. Going back from a child, the owner is
the last one whose run starts at or before it. Other relations are rows that
name both sides, found by searching a column.
-/
import ManagedImage.Metadata.Image

set_option autoImplicit false

namespace ManagedImage

/-- A run of rows of a table, the last one excluded. -/
structure RowRange where
  /-- The table. -/
  table : TableId
  /-- The first row. -/
  start : Nat
  /-- One past the last row. -/
  stop : Nat

namespace RowRange

/-- The number of rows. -/
def size (r : RowRange) : Nat := r.stop - r.start

/-- Whether a row is in the run. -/
def contains (r : RowRange) (row : Nat) : Bool := r.start ≤ row && row < r.stop

/-- The tokens of the rows in order. -/
def tokens (r : RowRange) : List Token :=
  (List.range' r.start r.size).map (Token.make r.table)

end RowRange

/-- A table whose rows own runs of another table. -/
structure OwnerList where
  /-- The owning table. -/
  owner : TableId
  /-- The column with the first child. -/
  column : Nat
  /-- The owned table. -/
  child : TableId

namespace OwnerList

/-- The fields of a type. -/
def fields : OwnerList := ⟨.typeDef, 4, .field⟩
/-- The methods of a type. -/
def methods : OwnerList := ⟨.typeDef, 5, .methodDef⟩
/-- The parameters of a method. -/
def params : OwnerList := ⟨.methodDef, 5, .param⟩
/-- The events of an event map. -/
def events : OwnerList := ⟨.eventMap, 1, .event⟩
/-- The properties of a property map. -/
def properties : OwnerList := ⟨.propertyMap, 1, .property⟩

/-- The list through which a member table finds its owner. -/
def ofChild? : TableId → Option OwnerList
  | .field => some fields
  | .methodDef => some methods
  | .param => some params
  | _ => none

end OwnerList

namespace Image

/-! ## Runs -/

/-- The run of children that a row owns, clipped to the rows that exist. -/
def owned (img : Image) (l : OwnerList) (row : Nat) : Except Fault RowRange :=
  let t := img.table l.owner
  if !t.hasRow row then .error (t.rowFault row)
  else
    let limit := (img.table l.child).rows + 1
    let start := min (t.cell row l.column) limit
    let next := if row < t.rows then min (t.cell (row + 1) l.column) limit else limit
    .ok ⟨l.child, start, max next start⟩

/-- The fields of a type. -/
def fieldRange (img : Image) (typeRow : Nat) : Except Fault RowRange := img.owned .fields typeRow

/-- The methods of a type. -/
def methodRange (img : Image) (typeRow : Nat) : Except Fault RowRange := img.owned .methods typeRow

/-- The parameters of a method. -/
def paramRange (img : Image) (methodRow : Nat) : Except Fault RowRange := img.owned .params methodRow

/-- The events of an event map row. -/
def eventRange (img : Image) (mapRow : Nat) : Except Fault RowRange := img.owned .events mapRow

/-- The properties of a property map row. -/
def propertyRange (img : Image) (mapRow : Nat) : Except Fault RowRange :=
  img.owned .properties mapRow

/-- The last owner whose run starts at or before a child, zero if there is none. -/
def ownerRow (img : Image) (l : OwnerList) (child : Nat) : Nat :=
  let t := img.table l.owner
  t.rowNumbers.foldl (fun found row => if t.cell row l.column ≤ child then row else found) 0

/-- The fault of a token that refers to no row. -/
def tokenRangeFault (tok : Token) : Fault :=
  .bounds .table Fault.noOffset (tok.render ++ " out of range" : String)

/-- The type of a field or method, or the method of a parameter. A nil token means that no
owner was found. -/
def declaring (img : Image) (tok : Token) : Except Fault Token :=
  match tok.table?.bind OwnerList.ofChild? with
  | none => .error (.invalidInput .table (tok.render ++ " has no declaring type" : String))
  | some l =>
    if !(img.table l.child).hasRow tok.row then .error (tokenRangeFault tok)
    else
      let row := img.ownerRow l tok.row
      .ok (if row = 0 then Token.null else Token.make l.owner row)

/-! ## Rows that name both sides -/

/-- The rows of a table whose coded column refers to a token. -/
def rowsByCoded (img : Image) (t : TableId) (k : CodedKind) (col : Nat) (tok : Token) :
    Except Fault (List Nat) := do
  return (img.table t).rowsWhere col (← k.encode tok)

/-- The generic parameters of a type or method. -/
def genericParams (img : Image) (owner : Token) : Except Fault (List Nat) :=
  img.rowsByCoded .genericParam .typeOrMethodDef 2 owner

/-- The custom attributes of anything. -/
def customAttributes (img : Image) (parent : Token) : Except Fault (List Nat) :=
  img.rowsByCoded .customAttribute .hasCustomAttribute 0 parent

/-- The accessors of an event or property. -/
def semanticsOf (img : Image) (association : Token) : Except Fault (List Nat) :=
  img.rowsByCoded .methodSemantics .hasSemantics 2 association

/-- The constant of a field, parameter or property, zero if it has none. -/
def constantOf (img : Image) (parent : Token) : Except Fault Nat := do
  return (← img.rowsByCoded .constant .hasConstant 2 parent).headD 0

/-- The event map row of a type, zero if it has none. -/
def eventMapOf (img : Image) (typeRow : Nat) : Nat := (img.table .eventMap).search 0 typeRow

/-- The property map row of a type, zero if it has none. -/
def propertyMapOf (img : Image) (typeRow : Nat) : Nat :=
  (img.table .propertyMap).search 0 typeRow

/-- The type that encloses a nested type, zero if none does. -/
def enclosing (img : Image) (typeRow : Nat) : Nat :=
  let t := img.table .nestedClass
  t.cell (t.search 0 typeRow) 1

/-- The interfaces a type declares. -/
def interfaces (img : Image) (typeRow : Nat) : Except Fault (List Token) :=
  let t := img.table .interfaceImpl
  (t.rowsWhere 0 typeRow).mapM fun row => CodedKind.typeDefOrRef.decode (t.cell row 1)

/-- The packing and size a type asks for. -/
def classLayoutOf? (img : Image) (typeRow : Nat) : Option (Nat × Nat) :=
  let t := img.table .classLayout
  let row := t.search 2 typeRow
  if row = 0 then none else some (t.cell row 0, t.cell row 1)

/-- The address of a field's initial data. -/
def fieldAddressOf? (img : Image) (fieldRow : Nat) : Option Nat :=
  let t := img.table .fieldRva
  let row := t.search 1 fieldRow
  if row = 0 then none else some (t.cell row 0)

end Image

end ManagedImage
