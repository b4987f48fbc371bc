/-
Summaries read back from CBOR.

Reading follows the keys of each map: a field takes the first entry whose key
has its name, small and capital letters alike, and what has no field is passed
over. A value of the wrong kind or out of range refuses the whole. An item that
says nothing leaves its field as if it had not been written.
-/
import ManagedImage.Report.Cbor
import ManagedImage.Text.Rune

set_option autoImplicit false

namespace ManagedImage.Report.Cbor.Item

/-! ## Plain values -/

/-- Whether the content of a date, of a moment or of a large number is of the right kind. -/
def fitsTag : Nat → Item → Bool
  | 0, .text _ => true
  | 1, .natural _ | 1, .negative _ | 1, .fraction _ _ => true
  | 2, .bytes _ | 3, .bytes _ => true
  | 0, _ | 1, _ | 2, _ | 3, _ => false
  | _, _ => true

/-- The number that bytes spell, most significant first. -/
def largeNumber (chunks : List (List UInt8)) : Nat := leNat chunks.flatten.reverse

/-- The item behind its tags. Bytes tagged as a large number are that number; a tag on content
that it cannot stand for refuses the item. -/
def plain? : Item → Option Item
  | .tag n content =>
    if fitsTag n content then
      match n, content with
      | 2, .bytes chunks => some (.natural (largeNumber chunks))
      | 3, .bytes chunks => some (.negative (largeNumber chunks))
      | _, content => plain? content
    else none
  | item => some item

/-- Whether an item says nothing. -/
def isNothing : Item → Bool
  | .simple n => n = nullCode || n = undefinedCode
  | _ => false

/-- The whole text of chunks, each of which has to be valid. -/
def textOf? (chunks : List (List UInt8)) : Option Text :=
  if chunks.all fun c => (Text.ofList c).isValid then some (Text.ofList chunks.flatten) else none

/-- A text. -/
def toText? (item : Item) : Option Text := do
  match ← item.plain? with
  | .text chunks => textOf? chunks
  | other => if other.isNothing then some Text.empty else none

/-- A truth value. -/
def toBool? (item : Item) : Option Bool := do
  match ← item.plain? with
  | .simple n =>
    if n = trueCode then some true
    else if n = falseCode ∨ n = nullCode ∨ n = undefinedCode then some false
    else none
  | _ => none

/-- A whole number. A simple value without a meaning of its own is its number. -/
def toInt? (item : Item) : Option Int := do
  match ← item.plain? with
  | .natural n => some n
  | .negative n => some (-1 - n)
  | .simple n =>
    if n = nullCode ∨ n = undefinedCode then some 0
    else if n = trueCode ∨ n = falseCode then none
    else some n
  | _ => none

/-- A number of 32 bits without sign. -/
def toWord? (item : Item) : Option UInt32 := do
  let n ← item.toInt?
  if 0 ≤ n ∧ n < 0x100000000 then some (UInt32.ofNat n.toNat) else none

/-- A number of 64 bits with sign. -/
def toCount? (item : Item) : Option Int64 := do
  let n ← item.toInt?
  if -0x8000000000000000 ≤ n ∧ n < 0x8000000000000000 then some (Int64.ofInt n) else none

/-- A list that may not have been started. -/
def toList? {α : Type} (f : Item → Option α) (item : Item) : Option (Option (List α)) := do
  match ← item.plain? with
  | .array items => return some (← items.mapM f)
  | other => if other.isNothing then some none else none

/-! ## Records -/

/-- The key of an entry: a text, or `none` for a number, which names no field. -/
def key? : Item → Option (Option Text)
  | .text chunks => (textOf? chunks).map some
  | .natural _ => some none
  | .negative n => if n < 0x8000000000000000 then some none else none
  | _ => none

/-- An entry with its key read. -/
def entry? (pair : Item × Item) : Option (Option Text × Item) :=
  pair.1.key?.map fun k => (k, pair.2)

/-- The entries of a record. -/
def entries? (item : Item) : Option (List (Option Text × Item)) := do
  match ← item.plain? with
  | .map pairs => pairs.mapM entry?
  | other => if other.isNothing then some [] else none

/-- A letter as a small one; all other bytes as they are. -/
def lowerByte (b : UInt8) : UInt8 := if 0x41 ≤ b && b ≤ 0x5A then b + 0x20 else b

/-- Whether a key names a field. -/
def names (key : Option Text) (name : String) : Bool :=
  match key with
  | some t => t.toList.map lowerByte = (Text.ofString name).toList
  | none => false

/-- The field of a name: the value of the first entry of that name, or a default if there is
none. -/
def field {α : Type} (entries : List (Option Text × Item)) (name : String)
    (convert : Item → Option α) (fallback : α) : Option α :=
  match entries.find? fun e => names e.1 name with
  | some e => convert e.2
  | none => some fallback

end ManagedImage.Report.Cbor.Item

namespace ManagedImage.Report

open Cbor (Item)
open Cbor.Item (field toText? toWord? toCount? toBool? toList? entries?)

/-- Reads a stream. -/
def StreamEntry.ofItem? (item : Item) : Option StreamEntry := do
  let es ← entries? item
  return {
    name := ← field es "name" toText? Text.empty
    offset := ← field es "offset" toWord? 0
    size := ← field es "size" toWord? 0 }

/-- Reads a table. -/
def TableEntry.ofItem? (item : Item) : Option TableEntry := do
  let es ← entries? item
  return {
    name := ← field es "name" toText? Text.empty
    rows := ← field es "rows" toWord? 0
    sorted := ← field es "sorted" toBool? false }

/-- Reads a method. -/
def MethodEntry.ofItem? (item : Item) : Option MethodEntry := do
  let es ← entries? item
  return {
    token := ⟨← field es "token" toWord? 0⟩
    name := ← field es "name" toText? Text.empty
    signature := ← field es "signature" toText? Text.empty
    rva := ← field es "rva" toWord? 0
    codeSize := ← field es "code_size" toCount? 0
    maxStack := ← field es "max_stack" toCount? 0
    clauses := ← field es "clauses" toCount? 0 }

/-- Reads a type. -/
def TypeEntry.ofItem? (item : Item) : Option TypeEntry := do
  let es ← entries? item
  return {
    token := ⟨← field es "token" toWord? 0⟩
    name := ← field es "name" toText? Text.empty
    base := ← field es "extends" toText? Text.empty
    fields := ← field es "fields" toCount? 0
    methods := (← field es "methods" (toList? MethodEntry.ofItem?) none).getD [] }

/-- Reads a summary. -/
def Summary.ofItem? (item : Item) : Option Summary := do
  let es ← entries? item
  return {
    path := ← field es "path" toText? Text.empty
    assembly := ← field es "assembly" toText? Text.empty
    version := ← field es "metadata_version" toText? Text.empty
    tableStream := ← field es "table_stream" toText? Text.empty
    is64 := ← field es "pe32_plus" toBool? false
    entryPoint := ← field es "entry_point" toText? Text.empty
    streams := ← field es "streams" (toList? StreamEntry.ofItem?) none
    tables := ← field es "tables" (toList? TableEntry.ofItem?) none
    types := ← field es "types" (toList? TypeEntry.ofItem?) none
    literals := ← field es "user_strings" toCount? 0 }

/-- The summary that CBOR bytes hold. -/
def Summary.ofCbor? (bytes : List UInt8) : Option Summary := do
  Summary.ofItem? (← Cbor.read bytes)

end ManagedImage.Report
