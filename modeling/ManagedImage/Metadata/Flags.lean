/-
Flag words of rows: the few bits that the library reads.
-/
import ManagedImage.Text

set_option autoImplicit false

namespace ManagedImage.Flags

/-- Whether the visibility bits of a type mark it as nested. -/
def typeIsNested (flags : Nat) : Bool := 1 < flags % 8

/-- Whether a type is an interface. -/
def typeIsInterface (flags : Nat) : Bool := flags.testBit 5

/-- Whether a method is static. -/
def methodIsStatic (flags : Nat) : Bool := flags.testBit 4

/-- Whether a method is abstract. -/
def methodIsAbstract (flags : Nat) : Bool := flags.testBit 10

/-- Whether a field is static. -/
def fieldIsStatic (flags : Nat) : Bool := flags.testBit 4

/-- The role of a method in a property or event. -/
def semanticsText (flags : Nat) : String :=
  match flags with
  | 0x01 => "setter"
  | 0x02 => "getter"
  | 0x04 => "other"
  | 0x08 => "addon"
  | 0x10 => "removeon"
  | 0x20 => "fire"
  | n => "semantics(0x" ++ hex n ++ ")"

end ManagedImage.Flags
