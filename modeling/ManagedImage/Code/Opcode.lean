/-
The operations of method code.

Each operation has a number, a name, a kind of operand, a count of values it
takes from the stack and leaves there, and a class of control flow. Numbers of
one byte stand for themselves; the others are a lead byte and a second one.

Many operations have short forms that fix the operand or narrow it. `longForm`
leads from a short form to the operation it abbreviates.
-/
import ManagedImage.Text

set_option autoImplicit false

namespace ManagedImage

/-! ## Operands -/

/-- What follows an operation. -/
inductive OperandKind where
  /-- Nothing. -/
  | none
  /-- A jump distance of one byte. -/
  | shortTarget
  /-- A signed number of one byte. -/
  | shortInt
  /-- A variable number of one byte. -/
  | shortVar
  /-- A variable number of two bytes. -/
  | var
  /-- A signed number of four bytes. -/
  | int
  /-- A jump distance of four bytes. -/
  | target
  /-- The token of a field. -/
  | field
  /-- The token of a method. -/
  | method
  /-- The token of a signature. -/
  | signature
  /-- The token of a string literal. -/
  | string
  /-- The token of a type, a method or a field. -/
  | token
  /-- The token of a type. -/
  | type
  /-- A signed number of eight bytes. -/
  | long
  /-- A floating-point number of eight bytes. -/
  | double
  /-- A floating-point number of four bytes. -/
  | single
  /-- A count and that many jump distances. -/
  | switch
  /-- Reserved; no operation has it. -/
  | phi
deriving DecidableEq, Repr

namespace OperandKind

/-- The name of the kind. -/
def name : OperandKind → String
  | .none => "None"
  | .shortTarget => "ShortBrTarget"
  | .shortInt => "ShortI"
  | .shortVar => "ShortVar"
  | .var => "Var"
  | .int => "I"
  | .target => "BrTarget"
  | .field => "Field"
  | .method => "Method"
  | .signature => "Sig"
  | .string => "String"
  | .token => "Tok"
  | .type => "Type"
  | .long => "I8"
  | .double => "R"
  | .single => "ShortR"
  | .switch => "Switch"
  | .phi => "Phi"

/-- Every kind, in the order of their numbers. -/
def all : List OperandKind := [
  .none, .shortTarget, .shortInt, .shortVar, .var, .int, .target, .field, .method, .signature,
  .string, .token, .type, .long, .double, .single, .switch, .phi]

/-- How the number of a kind is shown. -/
def numberText (n : Nat) : String :=
  match all[n]? with
  | some k => k.name
  | .none => s!"OperandKind({n})"

/-- The number of bytes of the operand; of a jump table, of its count. -/
def size : OperandKind → Nat
  | .none | .phi => 0
  | .shortTarget | .shortInt | .shortVar => 1
  | .var => 2
  | .int | .target | .field | .method | .signature | .string | .token | .type | .single
  | .switch => 4
  | .long | .double => 8

/-- Whether the operand is a token. -/
def isToken : OperandKind → Bool
  | .field | .method | .signature | .string | .token | .type => true
  | _ => false

/-- Whether the operand says where to jump. -/
def isTarget : OperandKind → Bool
  | .shortTarget | .target | .switch => true
  | _ => false

end OperandKind

/-! ## Control flow -/

/-- Where control goes after an operation. -/
inductive Flow where
  /-- To the next operation. -/
  | next
  /-- To the debugger and then on. -/
  | breakpoint
  /-- Into a method and back. -/
  | call
  /-- Out of the method or handler. -/
  | ret
  /-- To the target. -/
  | branch
  /-- To the target or on. -/
  | condBranch
  /-- Into a handler. -/
  | throw
  /-- On: the operation qualifies the next one. -/
  | modifier
deriving DecidableEq, Repr

namespace Flow

/-- The name of the class. -/
def name : Flow → String
  | .next => "next"
  | .breakpoint => "break"
  | .call => "call"
  | .ret => "return"
  | .branch => "branch"
  | .condBranch => "cond_branch"
  | .throw => "throw"
  | .modifier => "meta"

/-- Every class, in the order of their numbers. -/
def all : List Flow := [.next, .breakpoint, .call, .ret, .branch, .condBranch, .throw, .modifier]

/-- How the number of a class is shown. -/
def numberText (n : Nat) : String :=
  match all[n]? with
  | some f => f.name
  | none => s!"Flow({n})"

end Flow

/-! ## Operations -/

/-- An operation. -/
inductive Opcode where
  | nop | breakpoint | ldarg0 | ldarg1 | ldarg2 | ldarg3 | ldloc0 | ldloc1 | ldloc2 | ldloc3
  | stloc0 | stloc1 | stloc2 | stloc3 | ldargS | ldargaS | stargS | ldlocS | ldlocaS | stlocS
  | ldnull | ldcI4M1 | ldcI40 | ldcI41 | ldcI42 | ldcI43 | ldcI44 | ldcI45 | ldcI46 | ldcI47
  | ldcI48 | ldcI4S | ldcI4 | ldcI8 | ldcR4 | ldcR8 | dup | pop | jmp | call | calli | ret | brS
  | brfalseS | brtrueS | beqS | bgeS | bgtS | bleS | bltS | bneUnS | bgeUnS | bgtUnS | bleUnS
  | bltUnS | br | brfalse | brtrue | beq | bge | bgt | ble | blt | bneUn | bgeUn | bgtUn | bleUn
  | bltUn | switch | ldindI1 | ldindU1 | ldindI2 | ldindU2 | ldindI4 | ldindU4 | ldindI8 | ldindI
  | ldindR4 | ldindR8 | ldindRef | stindRef | stindI1 | stindI2 | stindI4 | stindI8 | stindR4
  | stindR8 | add | sub | mul | div | divUn | rem | remUn | and | or | xor | shl | shr | shrUn
  | neg | not | convI1 | convI2 | convI4 | convI8 | convR4 | convR8 | convU4 | convU8 | callvirt
  | cpobj | ldobj | ldstr | newobj | castclass | isinst | convRUn | unbox | throw | ldfld
  | ldflda | stfld | ldsfld | ldsflda | stsfld | stobj | convOvfI1Un | convOvfI2Un | convOvfI4Un
  | convOvfI8Un | convOvfU1Un | convOvfU2Un | convOvfU4Un | convOvfU8Un | convOvfIUn | convOvfUUn
  | box | newarr | ldlen | ldelema | ldelemI1 | ldelemU1 | ldelemI2 | ldelemU2 | ldelemI4
  | ldelemU4 | ldelemI8 | ldelemI | ldelemR4 | ldelemR8 | ldelemRef | stelemI | stelemI1
  | stelemI2 | stelemI4 | stelemI8 | stelemR4 | stelemR8 | stelemRef | ldelem | stelem | unboxAny
  | convOvfI1 | convOvfU1 | convOvfI2 | convOvfU2 | convOvfI4 | convOvfU4 | convOvfI8 | convOvfU8
  | refanyval | ckfinite | mkrefany | ldtoken | convU2 | convU1 | convI | convOvfI | convOvfU
  | addOvf | addOvfUn | mulOvf | mulOvfUn | subOvf | subOvfUn | endfinally | leave | leaveS
  | stindI | convU | arglist | ceq | cgt | cgtUn | clt | cltUn | ldftn | ldvirtftn | ldarg
  | ldarga | starg | ldloc | ldloca | stloc | localloc | endfilter | unaligned | volatile | tail
  | initobj | constrained | cpblk | initblk | no | rethrow | sizeof | refanytype | readonly
deriving DecidableEq, Repr

instance : Inhabited Opcode := ⟨.nop⟩

/-- What is fixed for an operation. -/
structure OpcodeInfo where
  /-- Its name. -/
  name : String
  /-- What follows it. -/
  operand : OperandKind
  /-- How many values it takes; none if that hangs on a signature or on the stack. -/
  pops : Option Nat
  /-- How many values it leaves, at most. -/
  pushes : Nat
  /-- Where control goes. -/
  flow : Flow

namespace Opcode

/-- The lead byte of the operations of two bytes. -/
def leadByte : Nat := 0xFE

/-- The number of an operation. -/
def code : Opcode → Nat
  | .nop => 0x00
  | .breakpoint => 0x01
  | .ldarg0 => 0x02
  | .ldarg1 => 0x03
  | .ldarg2 => 0x04
  | .ldarg3 => 0x05
  | .ldloc0 => 0x06
  | .ldloc1 => 0x07
  | .ldloc2 => 0x08
  | .ldloc3 => 0x09
  | .stloc0 => 0x0A
  | .stloc1 => 0x0B
  | .stloc2 => 0x0C
  | .stloc3 => 0x0D
  | .ldargS => 0x0E
  | .ldargaS => 0x0F
  | .stargS => 0x10
  | .ldlocS => 0x11
  | .ldlocaS => 0x12
  | .stlocS => 0x13
  | .ldnull => 0x14
  | .ldcI4M1 => 0x15
  | .ldcI40 => 0x16
  | .ldcI41 => 0x17
  | .ldcI42 => 0x18
  | .ldcI43 => 0x19
  | .ldcI44 => 0x1A
  | .ldcI45 => 0x1B
  | .ldcI46 => 0x1C
  | .ldcI47 => 0x1D
  | .ldcI48 => 0x1E
  | .ldcI4S => 0x1F
  | .ldcI4 => 0x20
  | .ldcI8 => 0x21
  | .ldcR4 => 0x22
  | .ldcR8 => 0x23
  | .dup => 0x25
  | .pop => 0x26
  | .jmp => 0x27
  | .call => 0x28
  | .calli => 0x29
  | .ret => 0x2A
  | .brS => 0x2B
  | .brfalseS => 0x2C
  | .brtrueS => 0x2D
  | .beqS => 0x2E
  | .bgeS => 0x2F
  | .bgtS => 0x30
  | .bleS => 0x31
  | .bltS => 0x32
  | .bneUnS => 0x33
  | .bgeUnS => 0x34
  | .bgtUnS => 0x35
  | .bleUnS => 0x36
  | .bltUnS => 0x37
  | .br => 0x38
  | .brfalse => 0x39
  | .brtrue => 0x3A
  | .beq => 0x3B
  | .bge => 0x3C
  | .bgt => 0x3D
  | .ble => 0x3E
  | .blt => 0x3F
  | .bneUn => 0x40
  | .bgeUn => 0x41
  | .bgtUn => 0x42
  | .bleUn => 0x43
  | .bltUn => 0x44
  | .switch => 0x45
  | .ldindI1 => 0x46
  | .ldindU1 => 0x47
  | .ldindI2 => 0x48
  | .ldindU2 => 0x49
  | .ldindI4 => 0x4A
  | .ldindU4 => 0x4B
  | .ldindI8 => 0x4C
  | .ldindI => 0x4D
  | .ldindR4 => 0x4E
  | .ldindR8 => 0x4F
  | .ldindRef => 0x50
  | .stindRef => 0x51
  | .stindI1 => 0x52
  | .stindI2 => 0x53
  | .stindI4 => 0x54
  | .stindI8 => 0x55
  | .stindR4 => 0x56
  | .stindR8 => 0x57
  | .add => 0x58
  | .sub => 0x59
  | .mul => 0x5A
  | .div => 0x5B
  | .divUn => 0x5C
  | .rem => 0x5D
  | .remUn => 0x5E
  | .and => 0x5F
  | .or => 0x60
  | .xor => 0x61
  | .shl => 0x62
  | .shr => 0x63
  | .shrUn => 0x64
  | .neg => 0x65
  | .not => 0x66
  | .convI1 => 0x67
  | .convI2 => 0x68
  | .convI4 => 0x69
  | .convI8 => 0x6A
  | .convR4 => 0x6B
  | .convR8 => 0x6C
  | .convU4 => 0x6D
  | .convU8 => 0x6E
  | .callvirt => 0x6F
  | .cpobj => 0x70
  | .ldobj => 0x71
  | .ldstr => 0x72
  | .newobj => 0x73
  | .castclass => 0x74
  | .isinst => 0x75
  | .convRUn => 0x76
  | .unbox => 0x79
  | .throw => 0x7A
  | .ldfld => 0x7B
  | .ldflda => 0x7C
  | .stfld => 0x7D
  | .ldsfld => 0x7E
  | .ldsflda => 0x7F
  | .stsfld => 0x80
  | .stobj => 0x81
  | .convOvfI1Un => 0x82
  | .convOvfI2Un => 0x83
  | .convOvfI4Un => 0x84
  | .convOvfI8Un => 0x85
  | .convOvfU1Un => 0x86
  | .convOvfU2Un => 0x87
  | .convOvfU4Un => 0x88
  | .convOvfU8Un => 0x89
  | .convOvfIUn => 0x8A
  | .convOvfUUn => 0x8B
  | .box => 0x8C
  | .newarr => 0x8D
  | .ldlen => 0x8E
  | .ldelema => 0x8F
  | .ldelemI1 => 0x90
  | .ldelemU1 => 0x91
  | .ldelemI2 => 0x92
  | .ldelemU2 => 0x93
  | .ldelemI4 => 0x94
  | .ldelemU4 => 0x95
  | .ldelemI8 => 0x96
  | .ldelemI => 0x97
  | .ldelemR4 => 0x98
  | .ldelemR8 => 0x99
  | .ldelemRef => 0x9A
  | .stelemI => 0x9B
  | .stelemI1 => 0x9C
  | .stelemI2 => 0x9D
  | .stelemI4 => 0x9E
  | .stelemI8 => 0x9F
  | .stelemR4 => 0xA0
  | .stelemR8 => 0xA1
  | .stelemRef => 0xA2
  | .ldelem => 0xA3
  | .stelem => 0xA4
  | .unboxAny => 0xA5
  | .convOvfI1 => 0xB3
  | .convOvfU1 => 0xB4
  | .convOvfI2 => 0xB5
  | .convOvfU2 => 0xB6
  | .convOvfI4 => 0xB7
  | .convOvfU4 => 0xB8
  | .convOvfI8 => 0xB9
  | .convOvfU8 => 0xBA
  | .refanyval => 0xC2
  | .ckfinite => 0xC3
  | .mkrefany => 0xC6
  | .ldtoken => 0xD0
  | .convU2 => 0xD1
  | .convU1 => 0xD2
  | .convI => 0xD3
  | .convOvfI => 0xD4
  | .convOvfU => 0xD5
  | .addOvf => 0xD6
  | .addOvfUn => 0xD7
  | .mulOvf => 0xD8
  | .mulOvfUn => 0xD9
  | .subOvf => 0xDA
  | .subOvfUn => 0xDB
  | .endfinally => 0xDC
  | .leave => 0xDD
  | .leaveS => 0xDE
  | .stindI => 0xDF
  | .convU => 0xE0
  | .arglist => 0xFE00
  | .ceq => 0xFE01
  | .cgt => 0xFE02
  | .cgtUn => 0xFE03
  | .clt => 0xFE04
  | .cltUn => 0xFE05
  | .ldftn => 0xFE06
  | .ldvirtftn => 0xFE07
  | .ldarg => 0xFE09
  | .ldarga => 0xFE0A
  | .starg => 0xFE0B
  | .ldloc => 0xFE0C
  | .ldloca => 0xFE0D
  | .stloc => 0xFE0E
  | .localloc => 0xFE0F
  | .endfilter => 0xFE11
  | .unaligned => 0xFE12
  | .volatile => 0xFE13
  | .tail => 0xFE14
  | .initobj => 0xFE15
  | .constrained => 0xFE16
  | .cpblk => 0xFE17
  | .initblk => 0xFE18
  | .no => 0xFE19
  | .rethrow => 0xFE1A
  | .sizeof => 0xFE1C
  | .refanytype => 0xFE1D
  | .readonly => 0xFE1E

/-- What is fixed for an operation. -/
def info : Opcode → OpcodeInfo
  | .nop => ⟨"nop", .none, some 0, 0, .next⟩
  | .breakpoint => ⟨"break", .none, some 0, 0, .breakpoint⟩
  | .ldarg0 => ⟨"ldarg.0", .none, some 0, 1, .next⟩
  | .ldarg1 => ⟨"ldarg.1", .none, some 0, 1, .next⟩
  | .ldarg2 => ⟨"ldarg.2", .none, some 0, 1, .next⟩
  | .ldarg3 => ⟨"ldarg.3", .none, some 0, 1, .next⟩
  | .ldloc0 => ⟨"ldloc.0", .none, some 0, 1, .next⟩
  | .ldloc1 => ⟨"ldloc.1", .none, some 0, 1, .next⟩
  | .ldloc2 => ⟨"ldloc.2", .none, some 0, 1, .next⟩
  | .ldloc3 => ⟨"ldloc.3", .none, some 0, 1, .next⟩
  | .stloc0 => ⟨"stloc.0", .none, some 1, 0, .next⟩
  | .stloc1 => ⟨"stloc.1", .none, some 1, 0, .next⟩
  | .stloc2 => ⟨"stloc.2", .none, some 1, 0, .next⟩
  | .stloc3 => ⟨"stloc.3", .none, some 1, 0, .next⟩
  | .ldargS => ⟨"ldarg.s", .shortVar, some 0, 1, .next⟩
  | .ldargaS => ⟨"ldarga.s", .shortVar, some 0, 1, .next⟩
  | .stargS => ⟨"starg.s", .shortVar, some 1, 0, .next⟩
  | .ldlocS => ⟨"ldloc.s", .shortVar, some 0, 1, .next⟩
  | .ldlocaS => ⟨"ldloca.s", .shortVar, some 0, 1, .next⟩
  | .stlocS => ⟨"stloc.s", .shortVar, some 1, 0, .next⟩
  | .ldnull => ⟨"ldnull", .none, some 0, 1, .next⟩
  | .ldcI4M1 => ⟨"ldc.i4.m1", .none, some 0, 1, .next⟩
  | .ldcI40 => ⟨"ldc.i4.0", .none, some 0, 1, .next⟩
  | .ldcI41 => ⟨"ldc.i4.1", .none, some 0, 1, .next⟩
  | .ldcI42 => ⟨"ldc.i4.2", .none, some 0, 1, .next⟩
  | .ldcI43 => ⟨"ldc.i4.3", .none, some 0, 1, .next⟩
  | .ldcI44 => ⟨"ldc.i4.4", .none, some 0, 1, .next⟩
  | .ldcI45 => ⟨"ldc.i4.5", .none, some 0, 1, .next⟩
  | .ldcI46 => ⟨"ldc.i4.6", .none, some 0, 1, .next⟩
  | .ldcI47 => ⟨"ldc.i4.7", .none, some 0, 1, .next⟩
  | .ldcI48 => ⟨"ldc.i4.8", .none, some 0, 1, .next⟩
  | .ldcI4S => ⟨"ldc.i4.s", .shortInt, some 0, 1, .next⟩
  | .ldcI4 => ⟨"ldc.i4", .int, some 0, 1, .next⟩
  | .ldcI8 => ⟨"ldc.i8", .long, some 0, 1, .next⟩
  | .ldcR4 => ⟨"ldc.r4", .single, some 0, 1, .next⟩
  | .ldcR8 => ⟨"ldc.r8", .double, some 0, 1, .next⟩
  | .dup => ⟨"dup", .none, some 1, 2, .next⟩
  | .pop => ⟨"pop", .none, some 1, 0, .next⟩
  | .jmp => ⟨"jmp", .method, some 0, 0, .call⟩
  | .call => ⟨"call", .method, none, 1, .call⟩
  | .calli => ⟨"calli", .signature, none, 1, .call⟩
  | .ret => ⟨"ret", .none, none, 0, .ret⟩
  | .brS => ⟨"br.s", .shortTarget, some 0, 0, .branch⟩
  | .brfalseS => ⟨"brfalse.s", .shortTarget, some 1, 0, .condBranch⟩
  | .brtrueS => ⟨"brtrue.s", .shortTarget, some 1, 0, .condBranch⟩
  | .beqS => ⟨"beq.s", .shortTarget, some 2, 0, .condBranch⟩
  | .bgeS => ⟨"bge.s", .shortTarget, some 2, 0, .condBranch⟩
  | .bgtS => ⟨"bgt.s", .shortTarget, some 2, 0, .condBranch⟩
  | .bleS => ⟨"ble.s", .shortTarget, some 2, 0, .condBranch⟩
  | .bltS => ⟨"blt.s", .shortTarget, some 2, 0, .condBranch⟩
  | .bneUnS => ⟨"bne.un.s", .shortTarget, some 2, 0, .condBranch⟩
  | .bgeUnS => ⟨"bge.un.s", .shortTarget, some 2, 0, .condBranch⟩
  | .bgtUnS => ⟨"bgt.un.s", .shortTarget, some 2, 0, .condBranch⟩
  | .bleUnS => ⟨"ble.un.s", .shortTarget, some 2, 0, .condBranch⟩
  | .bltUnS => ⟨"blt.un.s", .shortTarget, some 2, 0, .condBranch⟩
  | .br => ⟨"br", .target, some 0, 0, .branch⟩
  | .brfalse => ⟨"brfalse", .target, some 1, 0, .condBranch⟩
  | .brtrue => ⟨"brtrue", .target, some 1, 0, .condBranch⟩
  | .beq => ⟨"beq", .target, some 2, 0, .condBranch⟩
  | .bge => ⟨"bge", .target, some 2, 0, .condBranch⟩
  | .bgt => ⟨"bgt", .target, some 2, 0, .condBranch⟩
  | .ble => ⟨"ble", .target, some 2, 0, .condBranch⟩
  | .blt => ⟨"blt", .target, some 2, 0, .condBranch⟩
  | .bneUn => ⟨"bne.un", .target, some 2, 0, .condBranch⟩
  | .bgeUn => ⟨"bge.un", .target, some 2, 0, .condBranch⟩
  | .bgtUn => ⟨"bgt.un", .target, some 2, 0, .condBranch⟩
  | .bleUn => ⟨"ble.un", .target, some 2, 0, .condBranch⟩
  | .bltUn => ⟨"blt.un", .target, some 2, 0, .condBranch⟩
  | .switch => ⟨"switch", .switch, some 1, 0, .condBranch⟩
  | .ldindI1 => ⟨"ldind.i1", .none, some 1, 1, .next⟩
  | .ldindU1 => ⟨"ldind.u1", .none, some 1, 1, .next⟩
  | .ldindI2 => ⟨"ldind.i2", .none, some 1, 1, .next⟩
  | .ldindU2 => ⟨"ldind.u2", .none, some 1, 1, .next⟩
  | .ldindI4 => ⟨"ldind.i4", .none, some 1, 1, .next⟩
  | .ldindU4 => ⟨"ldind.u4", .none, some 1, 1, .next⟩
  | .ldindI8 => ⟨"ldind.i8", .none, some 1, 1, .next⟩
  | .ldindI => ⟨"ldind.i", .none, some 1, 1, .next⟩
  | .ldindR4 => ⟨"ldind.r4", .none, some 1, 1, .next⟩
  | .ldindR8 => ⟨"ldind.r8", .none, some 1, 1, .next⟩
  | .ldindRef => ⟨"ldind.ref", .none, some 1, 1, .next⟩
  | .stindRef => ⟨"stind.ref", .none, some 2, 0, .next⟩
  | .stindI1 => ⟨"stind.i1", .none, some 2, 0, .next⟩
  | .stindI2 => ⟨"stind.i2", .none, some 2, 0, .next⟩
  | .stindI4 => ⟨"stind.i4", .none, some 2, 0, .next⟩
  | .stindI8 => ⟨"stind.i8", .none, some 2, 0, .next⟩
  | .stindR4 => ⟨"stind.r4", .none, some 2, 0, .next⟩
  | .stindR8 => ⟨"stind.r8", .none, some 2, 0, .next⟩
  | .add => ⟨"add", .none, some 2, 1, .next⟩
  | .sub => ⟨"sub", .none, some 2, 1, .next⟩
  | .mul => ⟨"mul", .none, some 2, 1, .next⟩
  | .div => ⟨"div", .none, some 2, 1, .next⟩
  | .divUn => ⟨"div.un", .none, some 2, 1, .next⟩
  | .rem => ⟨"rem", .none, some 2, 1, .next⟩
  | .remUn => ⟨"rem.un", .none, some 2, 1, .next⟩
  | .and => ⟨"and", .none, some 2, 1, .next⟩
  | .or => ⟨"or", .none, some 2, 1, .next⟩
  | .xor => ⟨"xor", .none, some 2, 1, .next⟩
  | .shl => ⟨"shl", .none, some 2, 1, .next⟩
  | .shr => ⟨"shr", .none, some 2, 1, .next⟩
  | .shrUn => ⟨"shr.un", .none, some 2, 1, .next⟩
  | .neg => ⟨"neg", .none, some 1, 1, .next⟩
  | .not => ⟨"not", .none, some 1, 1, .next⟩
  | .convI1 => ⟨"conv.i1", .none, some 1, 1, .next⟩
  | .convI2 => ⟨"conv.i2", .none, some 1, 1, .next⟩
  | .convI4 => ⟨"conv.i4", .none, some 1, 1, .next⟩
  | .convI8 => ⟨"conv.i8", .none, some 1, 1, .next⟩
  | .convR4 => ⟨"conv.r4", .none, some 1, 1, .next⟩
  | .convR8 => ⟨"conv.r8", .none, some 1, 1, .next⟩
  | .convU4 => ⟨"conv.u4", .none, some 1, 1, .next⟩
  | .convU8 => ⟨"conv.u8", .none, some 1, 1, .next⟩
  | .callvirt => ⟨"callvirt", .method, none, 1, .call⟩
  | .cpobj => ⟨"cpobj", .type, some 2, 0, .next⟩
  | .ldobj => ⟨"ldobj", .type, some 1, 1, .next⟩
  | .ldstr => ⟨"ldstr", .string, some 0, 1, .next⟩
  | .newobj => ⟨"newobj", .method, none, 1, .call⟩
  | .castclass => ⟨"castclass", .type, some 1, 1, .next⟩
  | .isinst => ⟨"isinst", .type, some 1, 1, .next⟩
  | .convRUn => ⟨"conv.r.un", .none, some 1, 1, .next⟩
  | .unbox => ⟨"unbox", .type, some 1, 1, .next⟩
  | .throw => ⟨"throw", .none, some 1, 0, .throw⟩
  | .ldfld => ⟨"ldfld", .field, some 1, 1, .next⟩
  | .ldflda => ⟨"ldflda", .field, some 1, 1, .next⟩
  | .stfld => ⟨"stfld", .field, some 2, 0, .next⟩
  | .ldsfld => ⟨"ldsfld", .field, some 0, 1, .next⟩
  | .ldsflda => ⟨"ldsflda", .field, some 0, 1, .next⟩
  | .stsfld => ⟨"stsfld", .field, some 1, 0, .next⟩
  | .stobj => ⟨"stobj", .type, some 2, 0, .next⟩
  | .convOvfI1Un => ⟨"conv.ovf.i1.un", .none, some 1, 1, .next⟩
  | .convOvfI2Un => ⟨"conv.ovf.i2.un", .none, some 1, 1, .next⟩
  | .convOvfI4Un => ⟨"conv.ovf.i4.un", .none, some 1, 1, .next⟩
  | .convOvfI8Un => ⟨"conv.ovf.i8.un", .none, some 1, 1, .next⟩
  | .convOvfU1Un => ⟨"conv.ovf.u1.un", .none, some 1, 1, .next⟩
  | .convOvfU2Un => ⟨"conv.ovf.u2.un", .none, some 1, 1, .next⟩
  | .convOvfU4Un => ⟨"conv.ovf.u4.un", .none, some 1, 1, .next⟩
  | .convOvfU8Un => ⟨"conv.ovf.u8.un", .none, some 1, 1, .next⟩
  | .convOvfIUn => ⟨"conv.ovf.i.un", .none, some 1, 1, .next⟩
  | .convOvfUUn => ⟨"conv.ovf.u.un", .none, some 1, 1, .next⟩
  | .box => ⟨"box", .type, some 1, 1, .next⟩
  | .newarr => ⟨"newarr", .type, some 1, 1, .next⟩
  | .ldlen => ⟨"ldlen", .none, some 1, 1, .next⟩
  | .ldelema => ⟨"ldelema", .type, some 2, 1, .next⟩
  | .ldelemI1 => ⟨"ldelem.i1", .none, some 2, 1, .next⟩
  | .ldelemU1 => ⟨"ldelem.u1", .none, some 2, 1, .next⟩
  | .ldelemI2 => ⟨"ldelem.i2", .none, some 2, 1, .next⟩
  | .ldelemU2 => ⟨"ldelem.u2", .none, some 2, 1, .next⟩
  | .ldelemI4 => ⟨"ldelem.i4", .none, some 2, 1, .next⟩
  | .ldelemU4 => ⟨"ldelem.u4", .none, some 2, 1, .next⟩
  | .ldelemI8 => ⟨"ldelem.i8", .none, some 2, 1, .next⟩
  | .ldelemI => ⟨"ldelem.i", .none, some 2, 1, .next⟩
  | .ldelemR4 => ⟨"ldelem.r4", .none, some 2, 1, .next⟩
  | .ldelemR8 => ⟨"ldelem.r8", .none, some 2, 1, .next⟩
  | .ldelemRef => ⟨"ldelem.ref", .none, some 2, 1, .next⟩
  | .stelemI => ⟨"stelem.i", .none, some 3, 0, .next⟩
  | .stelemI1 => ⟨"stelem.i1", .none, some 3, 0, .next⟩
  | .stelemI2 => ⟨"stelem.i2", .none, some 3, 0, .next⟩
  | .stelemI4 => ⟨"stelem.i4", .none, some 3, 0, .next⟩
  | .stelemI8 => ⟨"stelem.i8", .none, some 3, 0, .next⟩
  | .stelemR4 => ⟨"stelem.r4", .none, some 3, 0, .next⟩
  | .stelemR8 => ⟨"stelem.r8", .none, some 3, 0, .next⟩
  | .stelemRef => ⟨"stelem.ref", .none, some 3, 0, .next⟩
  | .ldelem => ⟨"ldelem", .type, some 2, 1, .next⟩
  | .stelem => ⟨"stelem", .type, some 3, 0, .next⟩
  | .unboxAny => ⟨"unbox.any", .type, some 1, 1, .next⟩
  | .convOvfI1 => ⟨"conv.ovf.i1", .none, some 1, 1, .next⟩
  | .convOvfU1 => ⟨"conv.ovf.u1", .none, some 1, 1, .next⟩
  | .convOvfI2 => ⟨"conv.ovf.i2", .none, some 1, 1, .next⟩
  | .convOvfU2 => ⟨"conv.ovf.u2", .none, some 1, 1, .next⟩
  | .convOvfI4 => ⟨"conv.ovf.i4", .none, some 1, 1, .next⟩
  | .convOvfU4 => ⟨"conv.ovf.u4", .none, some 1, 1, .next⟩
  | .convOvfI8 => ⟨"conv.ovf.i8", .none, some 1, 1, .next⟩
  | .convOvfU8 => ⟨"conv.ovf.u8", .none, some 1, 1, .next⟩
  | .refanyval => ⟨"refanyval", .type, some 1, 1, .next⟩
  | .ckfinite => ⟨"ckfinite", .none, some 1, 1, .next⟩
  | .mkrefany => ⟨"mkrefany", .type, some 1, 1, .next⟩
  | .ldtoken => ⟨"ldtoken", .token, some 0, 1, .next⟩
  | .convU2 => ⟨"conv.u2", .none, some 1, 1, .next⟩
  | .convU1 => ⟨"conv.u1", .none, some 1, 1, .next⟩
  | .convI => ⟨"conv.i", .none, some 1, 1, .next⟩
  | .convOvfI => ⟨"conv.ovf.i", .none, some 1, 1, .next⟩
  | .convOvfU => ⟨"conv.ovf.u", .none, some 1, 1, .next⟩
  | .addOvf => ⟨"add.ovf", .none, some 2, 1, .next⟩
  | .addOvfUn => ⟨"add.ovf.un", .none, some 2, 1, .next⟩
  | .mulOvf => ⟨"mul.ovf", .none, some 2, 1, .next⟩
  | .mulOvfUn => ⟨"mul.ovf.un", .none, some 2, 1, .next⟩
  | .subOvf => ⟨"sub.ovf", .none, some 2, 1, .next⟩
  | .subOvfUn => ⟨"sub.ovf.un", .none, some 2, 1, .next⟩
  | .endfinally => ⟨"endfinally", .none, some 0, 0, .ret⟩
  | .leave => ⟨"leave", .target, some 0, 0, .branch⟩
  | .leaveS => ⟨"leave.s", .shortTarget, some 0, 0, .branch⟩
  | .stindI => ⟨"stind.i", .none, some 2, 0, .next⟩
  | .convU => ⟨"conv.u", .none, some 1, 1, .next⟩
  | .arglist => ⟨"arglist", .none, some 0, 1, .next⟩
  | .ceq => ⟨"ceq", .none, some 2, 1, .next⟩
  | .cgt => ⟨"cgt", .none, some 2, 1, .next⟩
  | .cgtUn => ⟨"cgt.un", .none, some 2, 1, .next⟩
  | .clt => ⟨"clt", .none, some 2, 1, .next⟩
  | .cltUn => ⟨"clt.un", .none, some 2, 1, .next⟩
  | .ldftn => ⟨"ldftn", .method, some 0, 1, .next⟩
  | .ldvirtftn => ⟨"ldvirtftn", .method, some 1, 1, .next⟩
  | .ldarg => ⟨"ldarg", .var, some 0, 1, .next⟩
  | .ldarga => ⟨"ldarga", .var, some 0, 1, .next⟩
  | .starg => ⟨"starg", .var, some 1, 0, .next⟩
  | .ldloc => ⟨"ldloc", .var, some 0, 1, .next⟩
  | .ldloca => ⟨"ldloca", .var, some 0, 1, .next⟩
  | .stloc => ⟨"stloc", .var, some 1, 0, .next⟩
  | .localloc => ⟨"localloc", .none, some 1, 1, .next⟩
  | .endfilter => ⟨"endfilter", .none, some 1, 0, .ret⟩
  | .unaligned => ⟨"unaligned.", .shortInt, some 0, 0, .modifier⟩
  | .volatile => ⟨"volatile.", .none, some 0, 0, .modifier⟩
  | .tail => ⟨"tail.", .none, some 0, 0, .modifier⟩
  | .initobj => ⟨"initobj", .type, some 1, 0, .next⟩
  | .constrained => ⟨"constrained.", .type, some 0, 0, .modifier⟩
  | .cpblk => ⟨"cpblk", .none, some 3, 0, .next⟩
  | .initblk => ⟨"initblk", .none, some 3, 0, .next⟩
  | .no => ⟨"no.", .shortInt, some 0, 0, .modifier⟩
  | .rethrow => ⟨"rethrow", .none, some 0, 0, .throw⟩
  | .sizeof => ⟨"sizeof", .type, some 0, 1, .next⟩
  | .refanytype => ⟨"refanytype", .none, some 1, 1, .next⟩
  | .readonly => ⟨"readonly.", .none, some 0, 0, .modifier⟩

/-- Every operation, in the order of their numbers. -/
def all : List Opcode := [
  .nop, .breakpoint, .ldarg0, .ldarg1, .ldarg2, .ldarg3, .ldloc0, .ldloc1, .ldloc2, .ldloc3,
  .stloc0, .stloc1, .stloc2, .stloc3, .ldargS, .ldargaS, .stargS, .ldlocS, .ldlocaS, .stlocS,
  .ldnull, .ldcI4M1, .ldcI40, .ldcI41, .ldcI42, .ldcI43, .ldcI44, .ldcI45, .ldcI46, .ldcI47,
  .ldcI48, .ldcI4S, .ldcI4, .ldcI8, .ldcR4, .ldcR8, .dup, .pop, .jmp, .call, .calli, .ret, .brS,
  .brfalseS, .brtrueS, .beqS, .bgeS, .bgtS, .bleS, .bltS, .bneUnS, .bgeUnS, .bgtUnS, .bleUnS,
  .bltUnS, .br, .brfalse, .brtrue, .beq, .bge, .bgt, .ble, .blt, .bneUn, .bgeUn, .bgtUn, .bleUn,
  .bltUn, .switch, .ldindI1, .ldindU1, .ldindI2, .ldindU2, .ldindI4, .ldindU4, .ldindI8, .ldindI,
  .ldindR4, .ldindR8, .ldindRef, .stindRef, .stindI1, .stindI2, .stindI4, .stindI8, .stindR4,
  .stindR8, .add, .sub, .mul, .div, .divUn, .rem, .remUn, .and, .or, .xor, .shl, .shr, .shrUn,
  .neg, .not, .convI1, .convI2, .convI4, .convI8, .convR4, .convR8, .convU4, .convU8, .callvirt,
  .cpobj, .ldobj, .ldstr, .newobj, .castclass, .isinst, .convRUn, .unbox, .throw, .ldfld,
  .ldflda, .stfld, .ldsfld, .ldsflda, .stsfld, .stobj, .convOvfI1Un, .convOvfI2Un, .convOvfI4Un,
  .convOvfI8Un, .convOvfU1Un, .convOvfU2Un, .convOvfU4Un, .convOvfU8Un, .convOvfIUn, .convOvfUUn,
  .box, .newarr, .ldlen, .ldelema, .ldelemI1, .ldelemU1, .ldelemI2, .ldelemU2, .ldelemI4,
  .ldelemU4, .ldelemI8, .ldelemI, .ldelemR4, .ldelemR8, .ldelemRef, .stelemI, .stelemI1,
  .stelemI2, .stelemI4, .stelemI8, .stelemR4, .stelemR8, .stelemRef, .ldelem, .stelem, .unboxAny,
  .convOvfI1, .convOvfU1, .convOvfI2, .convOvfU2, .convOvfI4, .convOvfU4, .convOvfI8, .convOvfU8,
  .refanyval, .ckfinite, .mkrefany, .ldtoken, .convU2, .convU1, .convI, .convOvfI, .convOvfU,
  .addOvf, .addOvfUn, .mulOvf, .mulOvfUn, .subOvf, .subOvfUn, .endfinally, .leave, .leaveS,
  .stindI, .convU, .arglist, .ceq, .cgt, .cgtUn, .clt, .cltUn, .ldftn, .ldvirtftn, .ldarg,
  .ldarga, .starg, .ldloc, .ldloca, .stloc, .localloc, .endfilter, .unaligned, .volatile, .tail,
  .initobj, .constrained, .cpblk, .initblk, .no, .rethrow, .sizeof, .refanytype, .readonly]

/-- The name of an operation. -/
def name (op : Opcode) : String := op.info.name

/-- What follows an operation. -/
def operand (op : Opcode) : OperandKind := op.info.operand

/-- Where control goes after an operation. -/
def flow (op : Opcode) : Flow := op.info.flow

/-- Whether an operation names jump targets. -/
def isBranch (op : Opcode) : Bool := op.operand.isTarget

/-- Whether an operation calls a method and goes on with its result. -/
def isCall : Opcode → Bool
  | .call | .calli | .callvirt => true
  | _ => false

/-! ## Numbers -/

/-- The operation with a number. -/
def ofCode? (n : Nat) : Option Opcode := all.find? fun op => op.code = n

/-- The number of bytes of an operation's number, assigned or not. -/
def codeSize (n : Nat) : Nat := if n / 256 = leadByte then 2 else 1

/-- The number of bytes of an operation without its operand. -/
def size (op : Opcode) : Nat := codeSize op.code

/-- How the number of an operation is shown, assigned or not. -/
def numberText (n : Nat) : String :=
  match ofCode? n with
  | some op => op.name
  | none => if codeSize n = 2 then "unknown.fe." ++ hexPad 2 (n % 256) else "unknown." ++ hexPad 2 n

/-! ## Short forms -/

/-- The operation that a form with a narrow operand abbreviates, if it is one. -/
def longForm? : Opcode → Option Opcode
  | .ldargS => some .ldarg
  | .ldargaS => some .ldarga
  | .stargS => some .starg
  | .ldlocS => some .ldloc
  | .ldlocaS => some .ldloca
  | .stlocS => some .stloc
  | .ldcI4S => some .ldcI4
  | .brS => some .br
  | .brfalseS => some .brfalse
  | .brtrueS => some .brtrue
  | .beqS => some .beq
  | .bgeS => some .bge
  | .bgtS => some .bgt
  | .bleS => some .ble
  | .bltS => some .blt
  | .bneUnS => some .bneUn
  | .bgeUnS => some .bgeUn
  | .bgtUnS => some .bgtUn
  | .bleUnS => some .bleUn
  | .bltUnS => some .bltUn
  | .leaveS => some .leave
  | _ => none

/-- The operation and the operand that a form without operand abbreviates, if it is one. -/
def implied? : Opcode → Option (Opcode × Int)
  | .ldarg0 => some (.ldarg, 0)
  | .ldarg1 => some (.ldarg, 1)
  | .ldarg2 => some (.ldarg, 2)
  | .ldarg3 => some (.ldarg, 3)
  | .ldloc0 => some (.ldloc, 0)
  | .ldloc1 => some (.ldloc, 1)
  | .ldloc2 => some (.ldloc, 2)
  | .ldloc3 => some (.ldloc, 3)
  | .stloc0 => some (.stloc, 0)
  | .stloc1 => some (.stloc, 1)
  | .stloc2 => some (.stloc, 2)
  | .stloc3 => some (.stloc, 3)
  | .ldcI4M1 => some (.ldcI4, -1)
  | .ldcI40 => some (.ldcI4, 0)
  | .ldcI41 => some (.ldcI4, 1)
  | .ldcI42 => some (.ldcI4, 2)
  | .ldcI43 => some (.ldcI4, 3)
  | .ldcI44 => some (.ldcI4, 4)
  | .ldcI45 => some (.ldcI4, 5)
  | .ldcI46 => some (.ldcI4, 6)
  | .ldcI47 => some (.ldcI4, 7)
  | .ldcI48 => some (.ldcI4, 8)
  | _ => none

end Opcode

end ManagedImage
