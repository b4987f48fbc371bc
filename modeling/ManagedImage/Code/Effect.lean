/-
What each operation does to the evaluation stack.

The operations fall into a few classes. An effect names the class and what
distinguishes its members; how an effect changes the stack is for the
simulation to say. Short forms have the effect of the operation they stand for.
-/
import ManagedImage.Code.Slot

set_option autoImplicit false

namespace ManagedImage

/-- What an arithmetic operation does with references. -/
inductive ReferenceArithmetic where
  /-- It refuses them. -/
  | refused
  /-- It adds an offset on either side. -/
  | adds
  /-- It takes an offset away, or the distance of two references. -/
  | subtracts
deriving DecidableEq

/-- What an operation does with the type it names. -/
inductive TypeUse where
  /-- It leaves a value of the type. -/
  | value
  /-- It leaves an object of the type. -/
  | object
  /-- It leaves a reference to the type. -/
  | reference
deriving DecidableEq

/-- What an operation does to the stack. -/
inductive Effect where
  /-- Nothing. -/
  | nothing
  /-- Loads an argument or a local variable, or its address. -/
  | variable (isArgument isAddress : Bool)
  /-- Takes `pops` values and leaves a fixed one. -/
  | replace (pops : Nat) (result : Operated)
  /-- Takes values and leaves none. -/
  | consume (pops : Nat)
  /-- Doubles the top value. -/
  | duplicate
  /-- Leaves the method for another; the stack has to be empty. -/
  | jump
  /-- Calls a method. -/
  | call
  /-- Returns; at most the result is on the stack. -/
  | ret
  /-- Drops everything. -/
  | clear
  /-- Ends a filter; exactly its answer is on the stack. -/
  | endFilter
  /-- Compares two values and leaves the answer or jumps on it. -/
  | compare (leavesAnswer : Bool)
  /-- Combines two numbers. -/
  | binary (floats : Bool) (references : ReferenceArithmetic)
  /-- Shifts an integer. -/
  | shift
  /-- Changes one number. -/
  | unary (floats : Bool)
  /-- Converts a number. -/
  | convert (result : Primitive)
  /-- Loads the object behind a reference. -/
  | loadObject
  /-- Loads an object from an array. -/
  | loadElement
  /-- Loads a field or its address. -/
  | field (pops : Nat) (isAddress : Bool)
  /-- Takes values and leaves one whose type is named. -/
  | typed (pops : Nat) (use : TypeUse)
  /-- Makes an array whose element type is named. -/
  | newArray
  /-- Leaves a pointer to a method. -/
  | methodPointer (pops : Nat)

namespace Effect

/-- Takes `pops` values and leaves one of a primitive type. -/
def load (pops : Nat) (p : Primitive) : Effect := .replace pops (.ofPrimitive p)

/-- Leaves a value whose type is not tracked. -/
def opaqueValue (pops : Nat) : Effect := .replace pops ⟨.none, none⟩

end Effect

/-- What an operation does to the stack. Operations that only take values are left to the count
in their description. -/
def Opcode.effect (op : Opcode) : Effect :=
  match op with
  | .nop | .breakpoint | .ckfinite | .unaligned | .volatile | .tail | .constrained | .no
  | .readonly | .br | .rethrow => .nothing
  | .ldarg => .variable true false
  | .ldarga => .variable true true
  | .ldloc => .variable false false
  | .ldloca => .variable false true
  | .ldnull => .replace 0 (.object none)
  | .ldcI4 => .load 0 .i4
  | .ldcI8 => .load 0 .i8
  | .ldcR4 => .load 0 .r4
  | .ldcR8 => .load 0 .r8
  | .ldstr => .load 0 .string
  | .dup => .duplicate
  | .jmp => .jump
  | .call | .callvirt | .calli | .newobj => .call
  | .ret => .ret
  | .leave | .endfinally => .clear
  | .endfilter => .endFilter
  | .beq | .bge | .bgt | .ble | .blt | .bneUn | .bgeUn | .bgtUn | .bleUn | .bltUn => .compare false
  | .ceq | .cgt | .cgtUn | .clt | .cltUn => .compare true
  | .add => .binary true .adds
  | .sub => .binary true .subtracts
  | .mul | .div | .rem => .binary true .refused
  | .addOvfUn => .binary false .adds
  | .subOvfUn => .binary false .subtracts
  | .addOvf | .subOvf | .mulOvf | .mulOvfUn | .divUn | .remUn | .and | .or | .xor =>
    .binary false .refused
  | .shl | .shr | .shrUn => .shift
  | .neg => .unary true
  | .not => .unary false
  | .convI1 | .convI2 | .convI4 | .convU1 | .convU2 | .convU4
  | .convOvfI1 | .convOvfI2 | .convOvfI4 | .convOvfU1 | .convOvfU2 | .convOvfU4
  | .convOvfI1Un | .convOvfI2Un | .convOvfI4Un | .convOvfU1Un | .convOvfU2Un | .convOvfU4Un =>
    .convert .i4
  | .convI8 | .convU8 | .convOvfI8 | .convOvfU8 | .convOvfI8Un | .convOvfU8Un => .convert .i8
  | .convI | .convU | .convOvfI | .convOvfU | .convOvfIUn | .convOvfUUn => .convert .i
  | .convR4 => .convert .r4
  | .convR8 | .convRUn => .convert .r8
  | .ldindI1 | .ldindU1 | .ldindI2 | .ldindU2 | .ldindI4 | .ldindU4 => .load 1 .i4
  | .ldindI8 => .load 1 .i8
  | .ldindI => .load 1 .i
  | .ldindR4 => .load 1 .r4
  | .ldindR8 => .load 1 .r8
  | .ldindRef => .loadObject
  | .ldelemI1 | .ldelemU1 | .ldelemI2 | .ldelemU2 | .ldelemI4 | .ldelemU4 => .load 2 .i4
  | .ldelemI8 => .load 2 .i8
  | .ldelemI => .load 2 .i
  | .ldelemR4 => .load 2 .r4
  | .ldelemR8 => .load 2 .r8
  | .ldelemRef => .loadElement
  | .ldlen | .localloc => .load 1 .u
  | .ldfld => .field 1 false
  | .ldflda => .field 1 true
  | .ldsfld => .field 0 false
  | .ldsflda => .field 0 true
  | .ldobj | .unboxAny => .typed 1 .value
  | .ldelem => .typed 2 .value
  | .box | .castclass | .isinst => .typed 1 .object
  | .newarr => .newArray
  | .unbox | .refanyval => .typed 1 .reference
  | .ldelema => .typed 2 .reference
  | .mkrefany => .load 1 .typedByRef
  | .refanytype => .opaqueValue 1
  | .ldtoken | .arglist => .opaqueValue 0
  | .sizeof => .load 0 .u4
  | .ldftn => .methodPointer 0
  | .ldvirtftn => .methodPointer 1
  | _ => .consume (op.info.pops.getD 0)

end ManagedImage
