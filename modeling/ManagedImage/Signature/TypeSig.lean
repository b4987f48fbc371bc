/-
Types as signatures describe them.

A type is a tree. Its leaves are primitives, named types and generic
parameters; the rest wraps other types. A function pointer holds a whole method
signature. Its parameters were read together with the type, and the bytes they
were read from are kept, so that it can be handed on as a method signature of
its own.

Rendering is a fold over the tree that takes the naming of tokens as an
argument; substitution replaces generic parameters and leaves function pointers
alone, since their parameters have a scope of their own.
-/
import ManagedImage.Signature.Element
import ManagedImage.Metadata.Token
import ManagedImage.Fault

set_option autoImplicit false

namespace ManagedImage

/-! ## Method heads -/

/-- What a method signature says before its return type. -/
structure MethodHead where
  /-- Whether there is a receiver. -/
  hasThis : Bool
  /-- Whether the receiver is among the parameters. -/
  explicitThis : Bool
  /-- The calling convention. -/
  convention : Nat
  /-- Whether the signature is flagged as generic. -/
  generic : Bool
  /-- The number of generic parameters, if it is given. -/
  genericCount : Option Nat
  /-- The number of parameters. -/
  paramCount : Nat
deriving DecidableEq, Repr

/-- The name of a calling convention. -/
def conventionText (n : Nat) : String :=
  match n with
  | 0x0 => "default"
  | 0x1 => "unmanaged cdecl"
  | 0x2 => "unmanaged stdcall"
  | 0x3 => "unmanaged thiscall"
  | 0x4 => "unmanaged fastcall"
  | 0x5 => "vararg"
  | 0x6 => "field"
  | 0x7 => "local"
  | 0x8 => "property"
  | 0x9 => "unmanaged"
  | 0xA => "instantiation"
  | n => "CallingConvention(0x" ++ hex n ++ ")"

namespace MethodHead

/-- The number of values a call takes from the stack. -/
def argCount (h : MethodHead) : Nat :=
  if h.hasThis && !h.explicitThis then h.paramCount + 1 else h.paramCount

/-- A signature around its return type and parameters, `label` standing between them. -/
def render (h : MethodHead) (ret label : Text) (params : List Text) : Text :=
  (if h.hasThis then ("instance " : Text) else Text.empty)
    ++ (if h.explicitThis then ("explicit " : Text) else Text.empty)
    ++ (if h.convention ≠ 0 then (conventionText h.convention ++ " " : Text) else Text.empty)
    ++ ret ++ label
    ++ (match h.genericCount with
      | some n => (s!"<[{n}]>" : Text)
      | none => Text.empty)
    ++ "(" ++ Text.join ", " params ++ (")" : Text)

end MethodHead

/-! ## Types -/

/-- A type. -/
inductive TypeSig where
  /-- A primitive. -/
  | prim (p : Primitive)
  /-- A class or value type. -/
  | named (tok : Token) (isValue : Bool)
  /-- A generic type with its arguments. -/
  | inst (tok : Token) (isValue : Bool) (args : List TypeSig)
  /-- An array with a rank; sizes and lower bounds may be given for the first dimensions. -/
  | array (elem : TypeSig) (rank : Nat) (sizes : List Nat) (lower : List Int)
  /-- An array of one dimension that starts at zero. -/
  | szArray (elem : TypeSig)
  /-- An unmanaged pointer. -/
  | pointer (elem : TypeSig)
  /-- A managed reference. -/
  | byRef (elem : TypeSig)
  /-- A local variable that must not be moved. -/
  | pinned (elem : TypeSig)
  /-- A type with a modifier that must, or may, be understood. -/
  | modified (required : Bool) (tok : Token) (elem : TypeSig)
  /-- A generic parameter of the type. -/
  | typeVar (index : Nat)
  /-- A generic parameter of the method. -/
  | methodVar (index : Nat)
  /-- A function pointer. `sentinel` counts the parameters before the variable ones, `complete`
  says that all parameters could be read, and `paramBytes` is what they were read from. -/
  | fnPtr (head : MethodHead) (ret : TypeSig) (params : List TypeSig) (sentinel : Option Nat)
      (complete : Bool) (paramBytes : List UInt8)

instance : Inhabited TypeSig := ⟨.prim .void⟩

namespace TypeSig

/-- The tag that introduces the type. -/
def kind : TypeSig → Nat
  | .prim p => p.code
  | .named _ isValue => if isValue then Element.valueType else Element.classType
  | .inst .. => Element.genericInst
  | .array .. => Element.array
  | .szArray _ => Element.szArray
  | .pointer _ => Element.ptr
  | .byRef _ => Element.byRef
  | .pinned _ => Element.pinned
  | .modified required .. => if required then Element.required else Element.optional
  | .typeVar _ => Element.typeVar
  | .methodVar _ => Element.methodVar
  | .fnPtr .. => Element.fnPtr

/-- The type without modifiers and pinning. -/
def underlying : TypeSig → TypeSig
  | .modified _ _ elem => elem.underlying
  | .pinned elem => elem.underlying
  | t => t

/-- Whether the type, without modifiers, is void. -/
def isVoid (t : TypeSig) : Bool :=
  match t.underlying with
  | .prim .void => true
  | _ => false

/-! ## Rendering -/

/-- Whether a type is a value type, in front of its name. -/
def classWord (isValue : Bool) : Text := if isValue then "valuetype " else "class "

/-- One dimension of an array. -/
def dimensionText (size? : Option Nat) (lower? : Option Int) : String :=
  match lower?, size? with
  | some lo, some n => decimal lo ++ "..." ++ decimal (lo + n - 1)
  | some lo, none => decimal lo ++ "..."
  | none, some n => toString n
  | none, none => ""

/-- The dimensions of an array in brackets. -/
def dimensionsText (rank : Nat) (sizes : List Nat) (lower : List Int) : String :=
  "[" ++ ",".intercalate ((List.range rank).map fun i => dimensionText sizes[i]? lower[i]?) ++ "]"

/-- The parameters of a list that may have a sentinel in it and may break off. -/
def paramTexts (types : List Text) (sentinel : Option Nat) (complete : Bool) : List Text :=
  (match sentinel with
    | some n => types.take n ++ [("..." : Text)] ++ types.drop n
    | none => types)
    ++ (if complete then [] else [("<invalid>" : Text)])

mutual

/-- The type spelled out, tokens named by `name`. -/
def render (name : Token → Text) : TypeSig → Text
  | .prim p => p.name
  | .named tok isValue => classWord isValue ++ name tok
  | .inst tok isValue args =>
    classWord isValue ++ name tok ++ "<" ++ Text.join "," (renderAll name args) ++ (">" : Text)
  | .array elem rank sizes lower => elem.render name ++ (dimensionsText rank sizes lower : Text)
  | .szArray elem => elem.render name ++ ("[]" : Text)
  | .pointer elem => elem.render name ++ ("*" : Text)
  | .byRef elem => elem.render name ++ ("&" : Text)
  | .pinned elem => elem.render name ++ (" pinned" : Text)
  | .modified required tok elem =>
    elem.render name ++ (if required then (" modreq(" : Text) else " modopt(") ++ name tok
      ++ (")" : Text)
  | .typeVar i => (s!"!{i}" : Text)
  | .methodVar i => (s!"!!{i}" : Text)
  | .fnPtr head ret params sentinel complete _ =>
    "method " ++ head.render (ret.render name) "*"
      (paramTexts (renderAll name params) sentinel complete)

/-- The types spelled out one by one. -/
def renderAll (name : Token → Text) : List TypeSig → List Text
  | [] => []
  | t :: rest => t.render name :: renderAll name rest

end

/-- The type with its tokens shown as they are. -/
def text (t : TypeSig) : Text := t.render fun tok => tok.render

/-! ## Substitution -/

/-- The fault of a generic parameter that no argument stands for. -/
def missingArgument (what : String) (param : String) (count : Nat) : Fault :=
  .located .signature .invalidInput Fault.noOffset
    (what ++ " parameter " ++ param ++ s!" has {count} arguments" : String)
    (some .missingInstantiation)

mutual

/-- The type with the arguments in place of its generic parameters. -/
def instantiate (typeArgs methodArgs : List TypeSig) : TypeSig → Except Fault TypeSig
  | .typeVar i => match typeArgs[i]? with
    | some t => .ok t
    | none => .error (missingArgument "type" s!"!{i}" typeArgs.length)
  | .methodVar i => match methodArgs[i]? with
    | some t => .ok t
    | none => .error (missingArgument "method" s!"!!{i}" methodArgs.length)
  | .inst tok isValue args => do
    return .inst tok isValue (← instantiateAll typeArgs methodArgs args)
  | .array elem rank sizes lower => do
    return .array (← elem.instantiate typeArgs methodArgs) rank sizes lower
  | .szArray elem => do return .szArray (← elem.instantiate typeArgs methodArgs)
  | .pointer elem => do return .pointer (← elem.instantiate typeArgs methodArgs)
  | .byRef elem => do return .byRef (← elem.instantiate typeArgs methodArgs)
  | .pinned elem => do return .pinned (← elem.instantiate typeArgs methodArgs)
  | .modified required tok elem => do
    return .modified required tok (← elem.instantiate typeArgs methodArgs)
  | t => .ok t

/-- The types with the arguments in place of their generic parameters. -/
def instantiateAll (typeArgs methodArgs : List TypeSig) :
    List TypeSig → Except Fault (List TypeSig)
  | [] => .ok []
  | t :: rest => do
    let t' ← t.instantiate typeArgs methodArgs
    return t' :: (← instantiateAll typeArgs methodArgs rest)

end

end TypeSig

end ManagedImage
