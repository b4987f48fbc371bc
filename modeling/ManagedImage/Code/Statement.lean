/-
Statements and the arguments of calls.

A statement starts where the simulated stack is empty. Within one, the
arguments of a call are found by running the statement again and keeping, for
every value on the stack, the place where the computation of it began.
-/
import ManagedImage.Code.Cursor

set_option autoImplicit false

namespace ManagedImage.Move

/-- The simulation, which has to be there. -/
def requireSimulation : Move Simulation := do
  match (← get).simulation with
  | some s => return s
  | none => throw (.invalidInput .stack "stack tracking is not enabled")

/-- Whether a statement starts at the current instruction. -/
def atStatement : Move Bool := do return (← requireSimulation).atStatement

/-- Moves back to the start of the current statement. -/
def backToStatement : Move Unit := do
  let s ← requireSimulation
  if (← get).started then rewind s.statementStart

/-! ## Starts of statements -/

/-- The start of a statement, or the place where the walk stopped and why. -/
structure StatementEntry where
  /-- The place. -/
  offset : Nat
  /-- What stopped the walk. -/
  fault : Option Fault

/-- The starts of the statements ahead, at most `limit` of them if it is given. -/
def statementsAhead : (left : Nat) → (limit : Option Nat) → Move (List StatementEntry)
  | 0, _ => return []
  | left + 1, limit => do
    if limit = some 0 then return []
    if !(← next) then
      let c ← get
      match c.fault with
      | some f => return [⟨c.current.offset, some f⟩]
      | none => return []
    else
      let c ← get
      if (c.simulation.map (·.atStatement)).getD false then
        let rest ← statementsAhead left (limit.map (· - 1))
        return ⟨c.current.offset, none⟩ :: rest
      else statementsAhead left limit

/-- The starts of all statements from the first instruction on, at most `limit` of them if it is
given. The cursor stays at the last one. -/
def statements (limit : Option Nat) : Move (List StatementEntry) := do
  match (← get).simulation with
  | none => return [⟨0, some (.invalidInput .stack "stack tracking is not enabled")⟩]
  | some _ =>
    modify Cursor.reset
    statementsAhead (← get).instructionBound limit

/-! ## Arguments of calls -/

/-- Where the values on the stack were pushed, top first. -/
def sources (s : Simulation) : List Nat := s.slots.map (·.source)

/-- The beginnings of the values on the stack after one more instruction, which stood at `place`.
What an instruction computes begins where the lowest value that it takes began. -/
def originsAfter (place : Nat) (origins : List Nat) (s : Simulation) : List Nat :=
  if s.reshaped then sources s
  else
    let first := if s.popped = 0 then place else origins.getD (s.popped - 1) place
    List.replicate s.pushed first ++ origins.drop s.popped

/-- Moves forward to a call and follows where the values on the stack begin. -/
def originsTo (call : Nat) : (left : Nat) → List Nat → Move (List Nat)
  | 0, _ => stopped call
  | left + 1, origins => do
    let c ← get
    if c.current.offset < call then
      if ← next then originsTo call left (originsAfter c.current.offset origins (← requireSimulation))
      else stopped call
    else return origins

/-- Where the arguments of the current call begin, the first argument first. The cursor comes back
to the call. -/
def callArguments : Move (List Nat) := do
  let s ← requireSimulation
  let c ← get
  let i := c.current
  if !i.op.isCall then
    throw (.invalidInput .stack
      (i.op.name ++ " at " ++ targetText i.offset ++ " is not a call" : String))
  let sig ← MonadExcept.ofExcept (Simulate.callee c.image i)
  let (args, extra) := Simulate.callPops i.op sig
  if s.depth < args + extra then
    throw (.stackShape i.offset
      (i.op.name ++ s!" needs {args + extra} values, stack has {s.depth}" : String))
  -- The way to the call is gone again, with the beginnings beside the stack.
  let saved ← mark
  rewind s.statementStart
  let origins ← originsTo i.offset c.instructionBound (sources (← requireSimulation))
  restore saved
  return ((origins.drop extra).take args).reverse

end ManagedImage.Move
