/-
The simulated evaluation stack.

A simulation runs over the instructions in order of their places, not of their
execution. After an instruction from which control does not go on, the stack is
the one that an earlier jump brought to the next place, if there was one, and
empty otherwise. Where a handler starts, the stack is the exception or nothing.

An instruction that breaks a rule stops the simulation. What it took from the
stack before that stays taken.
-/
import ManagedImage.Code.Effect
import ManagedImage.Code.Resolve
import ManagedImage.Code.Body

set_option autoImplicit false

namespace ManagedImage

/-! ## Handlers -/

/-- What starts where a handler starts. -/
structure HandlerEntry where
  /-- What the handler is for. -/
  kind : Option ClauseKind
  /-- The class of the exceptions it catches. -/
  classToken : Token

/-- The starts of handlers; of two at one place the first in the list counts. -/
abbrev HandlerMap := List (Int × HandlerEntry)

namespace HandlerMap

/-- The starts that a clause brings, the later one first. -/
def entriesOf (c : Clause) : HandlerMap :=
  (if c.kind = some .filter then [(c.filterOffset, ⟨c.kind, Token.null⟩)] else [])
    ++ [(c.handlerOffset, ⟨c.kind, c.classToken⟩)]

/-- The starts of the handlers of a method; a later clause counts before an earlier one. -/
def ofClauses (cs : List Clause) : HandlerMap := cs.reverse.flatMap entriesOf

/-- What starts at a place. -/
def at? (m : HandlerMap) (offset : Nat) : Option HandlerEntry :=
  (m.find? fun e => e.1 = (offset : Int)).map (·.2)

end HandlerMap

/-! ## State -/

/-- A simulation between two instructions. -/
structure Simulation where
  /-- The types of the arguments, the receiver first. -/
  args : List TypeSig
  /-- The types of the local variables. -/
  locals : List TypeSig
  /-- The stack, its top first. -/
  slots : List Slot
  /-- The stacks that jumps bring to later places. -/
  snapshots : List (Nat × List Slot)
  /-- Whether control does not come here from the instruction before. -/
  dead : Bool
  /-- The last place at which the stack was empty. -/
  statementStart : Nat
  /-- How many values the last instruction took. -/
  popped : Nat
  /-- How many values the last instruction left. -/
  pushed : Nat
  /-- Whether the stack changed on entry to the current instruction. -/
  reshaped : Bool

/-- A step of a simulation, which may fail half-way. -/
abbrev Simulate (α : Type) := EStateM Fault Simulation α

namespace Simulation

/-- A simulation before the first instruction. -/
def start (args locals : List TypeSig) : Simulation :=
  ⟨args, locals, [], [], false, 0, 0, 0, false⟩

/-- The simulation put back before the first instruction. -/
def reset (s : Simulation) : Simulation := start s.args s.locals

/-- How many values are on the stack. -/
def depth (s : Simulation) : Nat := s.slots.length

/-- Whether a statement starts here: nothing is left on the stack. -/
def atStatement (s : Simulation) : Bool := s.slots.isEmpty

/-- The stack that a jump brings to a place. -/
def snapshot? (s : Simulation) (offset : Nat) : Option (List Slot) :=
  (s.snapshots.find? fun e => e.1 = offset).map (·.2)

/-- Keeps the stack for a place that is jumped to, if it comes later and has none yet. -/
def keep (source : Nat) (s : Simulation) (target : Int) : Simulation :=
  if target ≤ source then s
  else if (s.snapshot? target.toNat).isSome then s
  else { s with snapshots := (target.toNat, s.slots) :: s.snapshots }

/-! ## Entering an instruction -/

/-- The exception that a handler starts with. -/
def exceptionSlots (image : Option Image) (h : HandlerEntry) (offset : Nat) : List Slot :=
  match h.kind with
  | some .catch =>
    let type := if h.classToken.isNil then none
      else image.bind fun img => (img.typeOf h.classToken).toOption
    [⟨.object, type, offset⟩]
  | some .filter => [⟨.object, none, offset⟩]
  | _ => []

/-- The stack on entry to the instruction at a place, and whether it is another than before. -/
def entrySlots (image : Option Image) (handlers : HandlerMap) (offset : Nat) (s : Simulation) :
    List Slot × Bool :=
  match handlers.at? offset with
  | some h => (exceptionSlots image h offset, true)
  | none => if s.dead then ((s.snapshot? offset).getD [], true) else (s.slots, false)

/-- Moves to the instruction at a place. -/
def enter (image : Option Image) (handlers : HandlerMap) (offset : Nat) (s : Simulation) :
    Simulation :=
  let (slots, reshaped) := s.entrySlots image handlers offset
  { s with
    slots, reshaped
    dead := false
    statementStart := if slots.isEmpty then offset else s.statementStart }

end Simulation

/-! ## Taking and leaving values -/

namespace Simulate

/-- A fault of the stack at an instruction. -/
def shapeFault {α : Type} (i : Instruction) (detail : String) : Simulate α :=
  throw (.stackShape i.offset detail)

/-- The fault of an instruction that needs more values than there are. -/
def underflow {α : Type} (i : Instruction) (needed : Nat) : Simulate α := do
  shapeFault i (i.op.name ++ s!" needs {needed} values, stack has {(← get).depth}")

/-- Takes `n` values, top first. -/
def pop (i : Instruction) (n : Nat) : Simulate (List Slot) := do
  let s ← get
  if s.depth < n then underflow i n
  else
    set { s with slots := s.slots.drop n, popped := s.popped + n }
    return s.slots.take n

/-- Takes one value. -/
def pop1 (i : Instruction) : Simulate Slot := do
  match ← pop i 1 with
  | [a] => return a
  | _ => underflow i 1

/-- Takes two values, the lower one first. -/
def pop2 (i : Instruction) : Simulate (Slot × Slot) := do
  match ← pop i 2 with
  | [b, a] => return (a, b)
  | _ => underflow i 2

/-- Leaves a slot. -/
def pushSlot (v : Slot) : Simulate Unit :=
  modify fun s => { s with slots := v :: s.slots, pushed := s.pushed + 1 }

/-- Leaves a value. -/
def push (i : Instruction) (v : Operated) : Simulate Unit := pushSlot (.pushedAt v i.offset)

/-! ## Effects -/

/-- The type of a variable. -/
def variableType (i : Instruction) (types : List TypeSig) (what : String) : Simulate TypeSig := do
  let index := i.operand.toInt
  match (if index < 0 then none else types[index.toNat]?) with
  | some t => return t
  | none =>
    shapeFault i (what ++ " " ++ decimal index ++ s!" out of range ({types.length} declared)")

/-- The type that a token names; nothing is known without an image. -/
def namedType (image : Option Image) (i : Instruction) : Simulate (Option TypeSig) := do
  match image with
  | some img => return some (← MonadExcept.ofExcept (img.typeOf i.operand.toToken))
  | none => return none

/-- The type of the field that a token names; nothing is known without an image. -/
def fieldType (image : Option Image) (i : Instruction) : Simulate (Option TypeSig) := do
  match image with
  | some img => return some (← MonadExcept.ofExcept (img.fieldType i.operand.toToken))
  | none => return none

/-- Combines two values, or refuses to. -/
def combine (floats : Bool) (references : ReferenceArithmetic) (a b : Slot) : Option Operated :=
  let computed (c : Category) : Operated := ⟨c, c.resultType⟩
  if a.category.isNativeOr32 && b.category.isNativeOr32 then
    some (computed (if a.category = .nativeInt || b.category = .nativeInt then .nativeInt else .int32))
  else if a.category = .int64 && b.category = .int64 then some (computed .int64)
  else if a.category = .float && b.category = .float && floats then some (computed .float)
  else if references ≠ .refused && a.category = .reference && b.category.isNativeOr32 then
    some ⟨.reference, a.type⟩
  else if references = .adds && a.category.isNativeOr32 && b.category = .reference then
    some ⟨.reference, b.type⟩
  else if references = .subtracts && a.category = .reference && b.category = .reference then
    some (computed .nativeInt)
  else none

/-- The signature of the method that an instruction calls. -/
def callee (image : Option Image) (i : Instruction) : Except Fault MethodSig :=
  match image with
  | none => .error (.invalidInput .stack
      ("resolving " ++ i.op.name ++ " at " ++ targetText i.offset ++ " needs an image" : String))
  | some img =>
    if i.op = .calli then img.standAloneSig i.operand.toToken else img.methodSig i.operand.toToken

/-- How many arguments a call takes, and how many values lie above them. -/
def callPops (op : Opcode) (sig : MethodSig) : Nat × Nat :=
  match op with
  | .calli => (sig.argCount, 1)
  | .callvirt => (if sig.head.hasThis then sig.argCount else sig.head.paramCount + 1, 0)
  | .newobj => (sig.head.paramCount, 0)
  | _ => (sig.argCount, 0)

/-- Makes an object and calls its constructor, or calls a method. -/
def call (image : Option Image) (i : Instruction) : Simulate Unit := do
  let sig ← MonadExcept.ofExcept (callee image i)
  let (args, extra) := callPops i.op sig
  let _ ← pop i (args + extra)
  if i.op = .newobj then
    let type ← match image with
      | some img => MonadExcept.ofExcept (img.constructedType i.operand.toToken)
      | none => pure none
    push i (match type with
      | some t => .ofType t
      | none => .object none)
  else if !sig.returnsVoid then push i (.ofType sig.ret)

/-- The type behind a reference. -/
def referencedType (v : Slot) : Option TypeSig :=
  match v.type.map TypeSig.underlying with
  | some (.byRef elem) => some elem
  | _ => none

/-- The type of the elements of an array. -/
def elementType (v : Slot) : Option TypeSig :=
  match v.type.map TypeSig.underlying with
  | some (.szArray elem) => some elem
  | _ => none

/-- The pointer type of the method that an instruction names, where it can be found. -/
def methodPointerType (image : Option Image) (i : Instruction) : Option TypeSig :=
  image.bind fun img => (img.methodSig i.operand.toToken).toOption.map MethodSig.pointerType

/-- What an instruction does to the stack; it has to be in normal form. -/
def effect (image : Option Image) (i : Instruction) : Simulate Unit := do
  let name := i.op.name
  match i.op.effect with
  | .nothing => return
  | .variable isArgument isAddress =>
    let s ← get
    let t ← if isArgument then variableType i s.args "argument" else variableType i s.locals "local"
    push i (if isAddress then .reference (some t) else .ofType t)
  | .replace pops result =>
    let _ ← pop i pops
    push i result
  | .consume pops => let _ ← pop i pops
  | .duplicate =>
    let v ← pop1 i
    pushSlot v
    -- Only the copy is new here; the value below keeps where it came from.
    pushSlot { v with source := i.offset }
  | .jump =>
    let n := (← get).depth
    if n ≠ 0 then shapeFault i s!"jmp with {n} values on the stack"
  | .call => call image i
  | .ret =>
    let n := (← get).depth
    if 1 < n then shapeFault i s!"ret with {n} values on the stack"
    let _ ← pop i n
  | .clear => let _ ← pop i (← get).depth
  | .endFilter =>
    let n := (← get).depth
    if n ≠ 1 then shapeFault i s!"endfilter with {n} values on the stack"
    let _ ← pop i 1
  | .compare leavesAnswer =>
    let (a, b) ← pop2 i
    if !a.category.comparable b.category then
      shapeFault i (name ++ " cannot compare " ++ a.category.name ++ " with " ++ b.category.name)
    if leavesAnswer then push i (.ofPrimitive .i4)
  | .binary floats references =>
    let (a, b) ← pop2 i
    match combine floats references a b with
    | some v => push i v
    | none =>
      shapeFault i (name ++ " cannot combine " ++ a.category.name ++ " and " ++ b.category.name)
  | .shift =>
    let (a, b) ← pop2 i
    if !a.category.isInteger || !b.category.isNativeOr32 then
      shapeFault i (name ++ " cannot shift " ++ a.category.name ++ " by " ++ b.category.name)
    push i ⟨a.category, a.type⟩
  | .unary floats =>
    let a ← pop1 i
    if !a.category.isInteger && !(floats && a.category = .float) then
      shapeFault i (name ++ " of " ++ a.category.name)
    push i ⟨a.category, a.type⟩
  | .convert result =>
    let a ← pop1 i
    if a.category = .none then shapeFault i (name ++ " of a value type")
    push i (.ofPrimitive result)
  | .loadObject => push i (.object (referencedType (← pop1 i)))
  | .loadElement =>
    -- The array lies below the index.
    let (a, _) ← pop2 i
    push i (.object (elementType a))
  | .field pops isAddress =>
    let _ ← pop i pops
    let t ← fieldType image i
    push i (if isAddress then .reference t else .ofType? t)
  | .typed pops use =>
    let _ ← pop i pops
    let t ← namedType image i
    push i (match use with
      | .value => .ofType? t
      | .object => .object t
      | .reference => .reference t)
  | .newArray =>
    let a ← pop1 i
    if !a.category.isNativeOr32 then shapeFault i ("newarr length is " ++ a.category.name)
    let t ← namedType image i
    push i (.object (t.map .szArray))
  | .methodPointer pops =>
    let _ ← pop i pops
    push i ⟨.nativeInt, methodPointerType image i⟩

/-- Whether control does not go on behind an operation. -/
def endsFlow (op : Opcode) : Bool :=
  match op.flow with
  | .branch | .ret | .throw => true
  | _ => op = .jmp

/-- Runs an instruction: its effect on the stack, then what its jumps leave for later places. -/
def run (image : Option Image) (i : Instruction) : Simulate Unit := do
  modify fun s => { s with popped := 0, pushed := 0 }
  effect image i.normalize
  modify fun s =>
    let s := i.operand.places.foldl (Simulation.keep i.offset) s
    { s with dead := s.dead || endsFlow i.op }

end Simulate

end ManagedImage
