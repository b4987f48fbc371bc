/-
Printing for people: headings, aligned fields, rules.

Output is one growing text. A command that fails half-way has printed what came
before, so the text is kept beside the fault.
-/
import ManagedImage.Fault
import ManagedImage.Text.Rune

set_option autoImplicit false

namespace ManagedImage.Command

/-- A part of a command: it adds to the output and may fail. -/
abbrev Print (α : Type) := EStateM Fault Text α

namespace Print

/-- Adds a text. -/
def text (t : Text) : Print Unit := modify (· ++ t)

/-- Adds a line. -/
def line (t : Text) : Print Unit := text (t ++ "\n")

/-- Adds an empty line. -/
def blank : Print Unit := line Text.empty

/-- Adds a heading, underlined along its bytes. -/
def heading (title : Text) : Print Unit := do
  line title
  line (Text.replicate title.size "=")

/-- Adds a value behind its label. -/
def field (label : String) (value : Text) : Print Unit :=
  line (Text.padRight 18 (label ++ ":" : String) ++ " " ++ value)

/-- Adds a number behind its label. -/
def count (label : String) (n : Nat) : Print Unit := field label (toString n : String)

/-- Adds a dashed line. -/
def rule (width : Nat) : Print Unit := line (Text.replicate width "-")

/-- The value, or the fault. -/
def require {α : Type} (x : Except Fault α) : Print α := MonadExcept.ofExcept x

end Print

/-- A number with eight upper-case hexadecimal digits. -/
def hex8 (n : Nat) : Text := ("0x" ++ hexPadUpper 8 n : String)

/-- A text, or nothing where there is none. -/
def textOr (fallback : Fault → Text) : Except Fault Text → Text
  | .ok t => t
  | .error f => fallback f

end ManagedImage.Command
