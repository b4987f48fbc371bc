/-
Looking things up: a token, a type or the members of a type.

A query that spells a token is one; one with a pair of colons names members of a
type; anything else names a type. Finding nothing is an answer, not a fault.
-/
import ManagedImage.Command.Overview
import ManagedImage.Command.Line
import ManagedImage.Code.Body
import ManagedImage.Code.Resolve

set_option autoImplicit false

namespace ManagedImage.Command

/-- The mark between a type and a member. -/
def memberMark : Text := "::"

/-- The members of a type with a name, methods before fields. -/
def membersNamed (img : Image) (type : Token) (name : Text) : List (Except Fault (List Token)) :=
  let matching (r : RowRange) := r.tokens.filter fun tok =>
    match img.memberName tok with
    | .ok n => n = name
    | .error _ => false
  [(img.methodRange type.row).map matching, (img.fieldRange type.row).map matching]

namespace Print

/-- What a type token leads to. -/
def typeFacts (img : Image) (tok : Token) : Print Unit := do
  let t ← require (img.typeOf tok)
  field "Type" (img.typeText t)
  match img.qualifiedName tok with
  | .ok name => field "Qualified" name
  | .error _ => pure ()
  if tok.table? = some .typeDef then
    let fields ← require (img.fieldRange tok.row)
    let methods ← require (img.methodRange tok.row)
    count "Fields" fields.size
    count "Methods" methods.size

/-- What a member token leads to. -/
def memberFacts (img : Image) (tok : Token) : Print Unit := do
  let name ← require (img.fullMemberName tok)
  field "Name" name
  if img.isField tok then
    match img.fieldType tok with
    | .ok t => field "Field Type" (img.typeText t)
    | .error _ => pure ()
  else
    let short := textOr (fun _ => Text.empty) (img.memberName tok)
    field "Signature" (methodTitle img tok short)
  if tok.table? = some .methodDef then
    match img.body tok.row with
    | .ok b =>
      field "RVA" (hex8 b.rva)
      count "Code Size" b.code.length
    | .error _ => pure ()

/-- The columns of a row. -/
def columns (img : Image) (tok : Token) : Print Unit := do
  match tok.table? with
  | none => throw (.plain ("unknown table in token " ++ tok.render : String))
  | some t =>
    let values ← require ((img.table t).row tok.row)
    blank
    for (c, v) in t.columns.zip values do
      field c.name (columnText c.kind v)

/-- All that is known of a token. -/
def token (img : Image) (tok : Token) : Print Unit := do
  heading tok.render
  field "Table" (tableNumberText tok.tableNumber)
  count "Row" tok.row
  if tok.isLiteral then
    let value ← require (img.literals.get tok.row)
    field "Value" value.quoted
  else
    match tok.table? with
    | some .typeDef | some .typeRef | some .typeSpec => typeFacts img tok
    | some .methodDef | some .memberRef | some .field => memberFacts img tok
    | _ => pure ()
    columns img tok

/-- Several tokens with empty lines between them; says whether there were any. -/
def tokens (img : Image) : (first : Bool) → List Token → Print Bool
  | first, [] => return first
  | first, tok :: rest => do
    unless first do blank
    token img tok
    tokens img false rest

/-- The answer for a type that is not there. -/
def noType (name : Text) : Print Unit := line ("No type found matching " ++ name.quoted)

/-- The members of a type that have a name. -/
def membersOf (img : Image) (type member : Text) : Print Unit := do
  let tok ← require (img.findType type)
  if tok.isNil then noType type
  else
    let mut none_ := true
    for found in membersNamed img tok member do
      none_ ← tokens img none_ (← require found)
    if none_ then line ("No member " ++ member.quoted ++ " in " ++ type)

/-- What a query finds. -/
def lookup (img : Image) (query : Text) : Print Unit := do
  match tokenWord? query with
  | some tok => token img tok
  | none =>
    match query.cut? memberMark with
    | some (type, member) => membersOf img type member
    | none =>
      let tok ← require (img.findType query)
      if tok.isNil then noType query else token img tok

end Print

end ManagedImage.Command
