/-
Tokens.

A token is one 32-bit word: a table number in the high byte and a one-based row
in the other three. Row zero refers to nothing. Every word is a token, whether
its table exists or not; string literals use the number 0x70, which is no table.
-/
import ManagedImage.Metadata.TableId

set_option autoImplicit false

namespace ManagedImage

/-- A reference to a row of some table. -/
structure Token where
  /-- The word. -/
  value : UInt32
deriving DecidableEq, Repr

namespace Token

/-- The number of rows a token can tell apart. -/
def rowSpan : Nat := 0x1000000

/-- The token with the given word; higher bits are dropped. -/
def ofNat (n : Nat) : Token := ⟨UInt32.ofNat n⟩

/-- The word as a number. -/
def toNat (t : Token) : Nat := t.value.toNat

/-- The token of a table number and a row, of which the low three bytes count. -/
def ofParts (number row : Nat) : Token := ofNat (number % 256 * rowSpan + row % rowSpan)

/-- The token of a row of a table. -/
def make (t : TableId) (row : Nat) : Token := ofParts t.code row

/-- The token that is all zero. -/
def null : Token := ofNat 0

instance : Inhabited Token := ⟨null⟩

/-- The table number. -/
def tableNumber (t : Token) : Nat := t.toNat / rowSpan

/-- The table, if the number names one. -/
def table? (t : Token) : Option TableId := TableId.ofCode? t.tableNumber

/-- The row. -/
def row (t : Token) : Nat := t.toNat % rowSpan

/-- Whether the token refers to no row. -/
def isNil (t : Token) : Bool := t.row == 0

/-- The table number of string literals. -/
def literalNumber : Nat := 0x70

/-- Whether the token refers to a string literal. -/
def isLiteral (t : Token) : Bool := t.tableNumber == literalNumber

/-- How a token is shown: the table's name and the word. -/
def render (t : Token) : String :=
  tableNumberText t.tableNumber ++ ":0x" ++ hexPadUpper 8 t.toNat

/-! ## Parts of a token -/

theorem toNat_ofNat (n : Nat) : (ofNat n).toNat = n % 0x100000000 := by
  simp [ofNat, toNat]

theorem tableNumber_make (t : TableId) (row : Nat) : (make t row).tableNumber = t.code := by
  have h := t.code_lt
  simp only [make, ofParts, tableNumber, toNat_ofNat, rowSpan]
  omega

theorem row_make (t : TableId) (row : Nat) : (make t row).row = row % rowSpan := by
  have h := t.code_lt
  simp only [make, ofParts, Token.row, toNat_ofNat, rowSpan]
  omega

@[simp] theorem table?_make (t : TableId) (row : Nat) : (make t row).table? = some t := by
  simp [table?, tableNumber_make]

end Token

end ManagedImage
