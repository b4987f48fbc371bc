/-
The code of a method, listed instruction by instruction.

Tokens in the code are shown as what they refer to, if that can be found. With
the stack simulated, statements can be set apart by empty lines, and the stack
before each instruction and the places that computed the arguments of a call can
be shown. A fault on the way ends the listing after what came before it.
-/
import ManagedImage.Command.Lookup
import ManagedImage.Code.Statement

set_option autoImplicit false

namespace ManagedImage.Command

/-- How code is listed. -/
structure ListingStyle where
  /-- Short and implied forms are written out. -/
  normalize : Bool
  /-- Statements are set apart. -/
  statements : Bool
  /-- The stack is shown. -/
  stack : Bool

/-- Whether the stack has to be simulated. -/
def ListingStyle.tracking (s : ListingStyle) : Bool := s.stack || s.statements

/-- The method that a word selects: the token of a definition, or a type and a name in it. -/
def selectMethod (img : Image) (word : Text) : Except Fault Token := do
  match tokenWord? word with
  | some tok =>
    if tok.table? = some .methodDef then return tok
    else throw (.plain (tok.render ++ " is not a method definition" : String))
  | none =>
    match word.cut? memberMark with
    | none => throw (.plain ("invalid method " ++ word.quoted ++ ": want a token or Type::Method"))
    | some (type, name) =>
      let owner ← img.findType type
      if owner.isNil then throw (.plain ("type " ++ type ++ " not found"))
      let methods ← img.methodRange owner.row
      let named (tok : Token) : Bool :=
        match img.memberName tok with
        | .ok n => n = name
        | .error _ => false
      match methods.tokens.find? named with
      | some tok => return tok
      | none => throw (.plain ("method " ++ name ++ " not found in " ++ type))

/-- An operand as what it refers to, or as it is. -/
def operandText (img : Image) (current shown : Instruction) : Text :=
  if !shown.op.operand.isToken then shown.operand.render
  else
    match current.resolve img with
    | .error _ => shown.operand.render
    | .ok (.literal s) => s.quoted
    | .ok (.signature sig) => img.methodText sig
    | .ok (.method sig name) => sig.render img.nameOf name
    | .ok (.field t name) => img.typeText t ++ " " ++ name
    | .ok (.type t) => img.typeText t

/-- A stack, its bottom first. -/
def stackText (slots : List Slot) : Text := "[" ++ Text.join " " (slots.map Slot.render) ++ "]"

/-- What a handler catches or where its filter is. -/
def clauseDetail (img : Image) (c : Clause) : Text :=
  match c.kind with
  | some .catch => " " ++ textOr (fun _ => c.classToken.render) (img.typeName c.classToken)
  | some .filter => (" filter " ++ targetText c.filterOffset : String)
  | _ => Text.empty

/-- A handler with its region. -/
def clauseText (img : Image) (c : Clause) : Text :=
  let span (start length : Int) : Text := (targetText start ++ "-" ++ targetText (start + length) : String)
  let kind : Text := (c.kind.map ClauseKind.name).getD ""
  "  try " ++ span c.tryOffset c.tryLength ++ " " ++ kind.padRight 8 ++ " "
    ++ span c.handlerOffset c.handlerLength ++ clauseDetail img c

namespace Print

/-- A move of a cursor, made while printing. -/
def moving {α : Type} (m : Move α) (c : Cursor) : Print (α × Cursor) :=
  match m c with
  | .ok a c => return (a, c)
  | .error f _ => throw f

/-- Where the arguments of a call were computed. -/
def callArguments (c : Cursor) : Print Cursor := do
  let (starts, c) ← moving Move.callArguments c
  unless starts.isEmpty do
    line ("      args from " ++ (", ".intercalate (starts.map fun (n : Nat) => targetText n) : String))
  return c

/-- The instruction under a cursor. -/
def instruction (img : Image) (style : ListingStyle) (c : Cursor) : Print Cursor := do
  let current := c.current
  let mut c := c
  if style.tracking then
    let (starts, c') ← moving Move.atStatement c
    c := c'
    if style.statements && starts && 0 < current.offset then blank
    if style.stack then line ("      " ++ stackText c.stack)
  let shown := if style.normalize then current.normalize else current
  line (("  " ++ targetText shown.offset ++ ": " : String) ++ Text.padRight 14 shown.op.name ++ " "
    ++ operandText img current shown)
  if style.stack && current.op.isCall then callArguments c else return c

/-- The instructions ahead of a cursor, `left` of them at most. -/
def instructions (img : Image) (style : ListingStyle) : (left : Nat) → Cursor → Print Unit
  | 0, _ => pure ()
  | left + 1, c =>
    match c.next with
    | (true, c) => do instructions img style left (← instruction img style c)
    | (false, c) =>
      match c.fault with
      | some f => throw f
      | none => pure ()

/-- The handlers of a body. -/
def handlers (img : Image) (b : Body) : Print Unit := do
  unless b.clauses.isEmpty do
    blank
    heading "Exception Handlers"
    for c in b.clauses do
      line (clauseText img c)

/-- What the header of a body says. -/
def bodyFacts (tok : Token) (b : Body) : Print Unit := do
  field "Token" tok.render
  field "RVA" (hex8 b.rva)
  field "Header" (if b.fat then ("fat" : Text) else "tiny")
  count "Code Size" b.code.length
  count "Max Stack" b.maxStack

/-- The local variables of a body. -/
def localVariables (img : Image) (locals : List TypeSig) : Print Unit :=
  unless locals.isEmpty do
    let parts := locals.mapIdx fun i t => (s!"[{i}] " : Text) ++ img.typeText t
    field "Locals" (Text.join ", " parts)

/-- The code of the method that a word selects. -/
def code (img : Image) (style : ListingStyle) (word : Text) : Print Unit := do
  let tok ← require (selectMethod img word)
  let b ← require (img.body tok.row)
  heading (methodTitle img tok (textOr (fun _ => Text.empty) (img.fullMemberName tok)))
  bodyFacts tok b
  let locals ← require (img.bodyLocals b)
  localVariables img locals
  blank
  let mut c := Cursor.ofBody img b
  if style.tracking then
    let args ← require (img.argumentTypes tok)
    let (_, c') ← moving (Move.trackStack args locals b.maxStack) c
    c := c'
  instructions img style c.instructionBound c
  handlers img b

end Print

end ManagedImage.Command
