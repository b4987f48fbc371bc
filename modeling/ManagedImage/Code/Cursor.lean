/-
Walking the instructions of a method.

A cursor moves over the code in order of places. It can carry a simulated stack,
which then holds what the instructions before the current one left. Moving back
under simulation means running forward again from a place where the stack was
empty; without simulation any place can be decoded at once.

A move that fails leaves the cursor where the failure happened. `Move` keeps
that state, so a caller may ask the cursor afterwards.
-/
import ManagedImage.Code.Simulation

set_option autoImplicit false

namespace ManagedImage

/-- A position in the code of a method. -/
structure Cursor where
  /-- Where the tokens of the code are looked up. -/
  image : Option Image
  /-- The code. -/
  code : List UInt8
  /-- The starts of handlers. -/
  handlers : HandlerMap
  /-- The places that are jumped to, once they have been collected. -/
  targets : Option (List Int)
  /-- The current instruction. -/
  current : Instruction
  /-- Whether the current instruction has been reached and not yet run. -/
  started : Bool
  /-- Whether the end of the code has been met. -/
  ended : Bool
  /-- Where the next instruction starts. -/
  nextOffset : Nat
  /-- What stopped the cursor. -/
  fault : Option Fault
  /-- Whether the current instruction is jumped to. -/
  onTarget : Bool
  /-- The simulated stack, if there is one. -/
  simulation : Option Simulation

/-- A move of the cursor, which may fail half-way. -/
abbrev Move (α : Type) := EStateM Fault Cursor α

namespace Cursor

/-- A cursor before the first instruction. -/
def start (image : Option Image) (code : List UInt8) : Cursor :=
  { image, code
    handlers := []
    targets := none
    current := .blank
    started := false
    ended := false
    nextOffset := 0
    fault := none
    onTarget := false
    simulation := none }

/-- A cursor over the code of a body, which knows its handlers. -/
def ofBody (image : Image) (b : Body) : Cursor :=
  { start (some image) b.code with handlers := .ofClauses b.clauses }

/-- The cursor with other handlers. -/
def setHandlers (c : Cursor) (clauses : List Clause) : Cursor :=
  { c with handlers := .ofClauses clauses }

/-- The cursor put back before the first instruction. -/
def reset (c : Cursor) : Cursor :=
  { c with
    current := .blank
    started := false
    ended := false
    nextOffset := 0
    fault := none
    onTarget := false
    simulation := c.simulation.map Simulation.reset }

/-- The simulated stack, its bottom first. -/
def stack (c : Cursor) : List Slot :=
  match c.simulation with
  | some s => s.slots.reverse
  | none => []

/-- Whether a place is jumped to. The places are in order, and are searched by halves. -/
def isTarget (c : Cursor) (place : Int) : Bool :=
  let ts := c.targets.getD []
  ts[Table.lowerBound (fun k => place ≤ ts.getD k place) 0 ts.length]? = some place

/-! ## Forward -/

/-- Runs the current instruction on the simulated stack. -/
def settle (c : Cursor) : Cursor :=
  match c.simulation with
  | none => c
  | some s =>
    if !c.started then c
    else match Simulate.run c.image c.current s with
      | .ok _ s => { c with simulation := some s }
      | .error f s => { c with simulation := some s, fault := some f }

/-- Moves onto an instruction. -/
def arrive (c : Cursor) (i : Instruction) : Cursor :=
  { c with
    current := i
    started := true
    nextOffset := i.next
    onTarget := c.isTarget i.offset
    simulation := c.simulation.map (Simulation.enter c.image c.handlers i.offset) }

/-- Moves to the next instruction and says whether there is one. At the end of the code the last
instruction has been run. -/
def next (c : Cursor) : Bool × Cursor :=
  if c.fault.isSome || c.ended then (false, c)
  else
    let c := c.settle
    if c.fault.isSome then (false, c)
    else if c.code.length ≤ c.nextOffset then (false, { c with ended := true })
    else match Instruction.decode c.code c.nextOffset with
      | .error f => (false, { c with fault := some f })
      | .ok i => (true, c.arrive i)

/-- What `view` shows on each of the next instructions, `left` of them at most. -/
def walk {α : Type} (view : Cursor → α) : (left : Nat) → Cursor → List α × Cursor
  | 0, c => ([], c)
  | left + 1, c => match c.next with
    | (false, c) => ([], c)
    | (true, c) =>
      let (rest, c') := walk view left c
      (view c :: rest, c')

/-- A bound on the number of instructions that are left. -/
def instructionBound (c : Cursor) : Nat := c.code.length + 1

end Cursor

namespace Move

/-- Moves to the next instruction and says whether there is one. -/
def next : Move Bool := do
  let (moved, c) := (← get).next
  set c
  return moved

/-- The fault of a walk that stopped before it came to a place. -/
def stopped {α : Type} (place : Int) : Move α := do
  match (← get).fault with
  | some f => throw f
  | none => throw (.invalidInput .code (targetText place ++ " was not reached" : String))

/-- Moves forward until the current instruction is not before a place. -/
def forwardTo (place : Int) : (left : Nat) → Move Unit
  | 0 => stopped place
  | left + 1 => do
    if (← get).current.offset < place then
      if ← next then forwardTo place left else stopped place

/-- Moves onto the instruction at a place without running anything. -/
def decodeAt (place : Nat) : Move Unit := do
  let c ← get
  match Instruction.decode c.code place with
  | .error f => throw f
  | .ok i => set { c with
      current := i
      started := true
      ended := false
      nextOffset := i.next
      fault := none
      onTarget := c.isTarget place }

/-- Moves onto the instruction at a place where the stack is empty. -/
def rewind (place : Nat) : Move Unit := do
  modify fun c => { c with
    nextOffset := place
    started := false
    ended := false
    fault := none
    simulation := c.simulation.map fun s => { s with slots := [], dead := false } }
  unless ← next do stopped place

/-- Moves onto the first instruction. -/
def toFirst (place : Int) : Move Unit := do
  modify Cursor.reset
  unless ← next do stopped place

/-- Moves onto the instruction at a place. -/
def goTo (place : Int) : Move Unit := do
  let c ← get
  if place < 0 ∨ c.code.length ≤ place then
    throw (.invalidInput .code (targetText place ++ " is outside the code" : String))
  match c.simulation with
  | none => decodeAt place.toNat
  | some s =>
    if c.started && s.statementStart ≤ place && place ≤ c.current.offset then
      rewind s.statementStart
    else if !c.started || place < s.statementStart then toFirst place
    forwardTo place c.instructionBound
    if (← get).current.offset ≠ place then
      throw (.invalidInput .code (targetText place ++ " is not an instruction boundary" : String))

/-! ## Looking ahead -/

/-- Collects the places that are jumped to and goes back before the first instruction. -/
def trackTargets : Move Unit := do
  let c ← get
  if c.targets.isSome then return
  let is ← MonadExcept.ofExcept (Instruction.sweepAll c.code)
  let places := (is.flatMap fun i => i.operand.places).mergeSort
  set { c with targets := some places.eraseReps }.reset

/-- Starts a simulation and goes back before the first instruction. -/
def trackStack (args locals : List TypeSig) (maxStack : Int) : Move Unit := do
  if maxStack < 0 then
    throw (.invalidInput .stack ("negative max stack " ++ decimal maxStack : String))
  modify fun c => { c with simulation := some (.start args locals) }.reset

/-! ## Remembering places -/

/-- A place to come back to. -/
structure Mark where
  /-- Where the current instruction stood. -/
  offset : Nat
  /-- Whether there was one. -/
  started : Bool
  /-- The last place with an empty stack, under simulation. -/
  statementStart : Option Nat

/-- The mark before the first instruction. -/
def Mark.none : Mark := ⟨0, false, .none⟩

/-- The current place. -/
def mark : Move Mark := do
  let c ← get
  return ⟨c.current.offset, c.started, c.simulation.map (·.statementStart)⟩

/-- Comes back to a place. -/
def restore (m : Mark) : Move Unit := do
  let c ← get
  if !m.started then set c.reset
  else match m.statementStart, c.simulation with
    | some first, some _ =>
      rewind first
      forwardTo m.offset c.instructionBound
    | _, _ => decodeAt m.offset

end Move

/-! ## Scopes of local variables -/

/-- First and last place that name a local variable. -/
structure LocalScope where
  /-- The first place. -/
  first : Nat
  /-- The last place. -/
  last : Nat

namespace LocalScope

/-- The local variable that an instruction names. -/
def localOf? (i : Instruction) : Option Nat :=
  let i := i.normalize
  match i.op with
  | .ldloc | .stloc | .ldloca => some i.operand.toInt.toNat
  | _ => none

/-- The scope with one more place. -/
def extend (place : Nat) : Option LocalScope → LocalScope
  | some s => { s with last := place }
  | none => ⟨place, place⟩

/-- The scopes after some more instructions. -/
def collect (scopes : List (Option LocalScope)) :
    List Instruction → Except Fault (List (Option LocalScope))
  | [] => .ok scopes
  | i :: rest => match localOf? i with
    | none => collect scopes rest
    | some n =>
      if scopes.length ≤ n then
        .error (.format .code i.offset s!"local {n} out of range ({scopes.length} locals)")
      else collect (scopes.modify n fun s => some (extend i.offset s)) rest

/-- The scopes of `n` local variables; one that is never named has none. -/
def ofCode (code : List UInt8) (n : Nat) : Except Fault (List (Option LocalScope)) := do
  let (is, fault) := Instruction.sweep code 0
  let scopes ← collect (List.replicate n none) is
  match fault with
  | some f => throw f
  | none => return scopes

end LocalScope

/-- A cursor with the scopes it has worked out last. No move looks at them. -/
structure ScopedCursor where
  /-- The cursor. -/
  cursor : Cursor
  /-- The scopes, once they have been asked for. -/
  scopes : Option (List (Option LocalScope))

namespace ScopedCursor

/-- A move of the cursor. -/
def move {α : Type} (m : Move α) : EStateM Fault ScopedCursor α := fun c =>
  match m c.cursor with
  | .ok a d => .ok a { c with cursor := d }
  | .error f d => .error f { c with cursor := d }

/-- The scopes of `n` local variables. They are worked out anew unless the last ones were those of
as many variables. -/
def localScopes (n : Nat) : EStateM Fault ScopedCursor (List (Option LocalScope)) := do
  let c ← get
  match c.scopes.filter fun scopes => scopes.length = n with
  | some scopes => return scopes
  | none =>
    let scopes ← MonadExcept.ofExcept (LocalScope.ofCode c.cursor.code n)
    set { c with scopes := some scopes }
    return scopes

end ScopedCursor

end ManagedImage
