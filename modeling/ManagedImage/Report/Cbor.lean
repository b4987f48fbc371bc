/-
CBOR: a binary notation for trees.

Every item starts with a head: three bits say what it is, and the other five
either hold its number or say how many bytes of it follow.

Summaries go through a library, fxamacker/cbor in version 2.5.0, and this is its
documented behaviour. Writing has its options for canonical CBOR: the shortest
head, definite lengths, and the members of a map ordered by their keys, shorter
keys first. Reading has its options at their defaults:

- at most 32 levels of lists, maps and tags within tags (`MaxNestedLevels`);
- at most 131072 members in one list (`MaxArrayElements`) and as many pairs in
  one map (`MaxMapPairs`);
- indefinite lengths (`IndefLength`) and tags (`TagsMd`) are allowed;
- the bytes have to be well formed and hold one item only, before anything is
  made of it.

How a summary is made of an item follows the defaults as well: text has to be
valid, and a key that names no field is passed over.
-/
import ManagedImage.Report.Document
import ManagedImage.Bytes.Word

set_option autoImplicit false

namespace ManagedImage.Report.Cbor

/-! ## Heads -/

/-- What an item is. -/
inductive Major where
  /-- A number from zero up. -/
  | natural
  /-- A number below zero, counted down from minus one. -/
  | negative
  /-- Bytes. -/
  | bytes
  /-- Text. -/
  | text
  /-- A list. -/
  | array
  /-- A map. -/
  | map
  /-- A number put in front of another item. -/
  | tag
  /-- A simple value or a binary fraction. -/
  | simple
deriving DecidableEq, Repr

/-- The three bits of a major type. -/
def Major.code (m : Major) : Nat := m.ctorIdx

/-- The major type of a first byte. -/
def Major.ofByte (b : UInt8) : Major :=
  match b.toNat / 32 with
  | 0 => .natural
  | 1 => .negative
  | 2 => .bytes
  | 3 => .text
  | 4 => .array
  | 5 => .map
  | 6 => .tag
  | _ => .simple

/-- The number a head carries. -/
inductive Argument where
  /-- The number and how many bytes after the first it took. -/
  | value (n width : Nat)
  /-- No number: members follow up to a break. -/
  | indefinite
deriving DecidableEq, Repr

/-- The bytes of a number, most significant first. -/
def bigEndian (width n : Nat) : List UInt8 := (leBytes width n).reverse

/-- The shortest head. -/
def head (m : Major) (n : Nat) : List UInt8 :=
  let first (info : Nat) : UInt8 := UInt8.ofNat (m.code * 32 + info)
  if n < 24 then [first n]
  else if n < 0x100 then first 24 :: bigEndian 1 n
  else if n < 0x10000 then first 25 :: bigEndian 2 n
  else if n < 0x100000000 then first 26 :: bigEndian 4 n
  else first 27 :: bigEndian 8 n

/-- How many bytes of the number follow a first byte; `none` for a byte that starts no head. -/
def followers? (info : Nat) : Option Nat :=
  if info < 24 then some 0
  else if info = 24 then some 1
  else if info = 25 then some 2
  else if info = 26 then some 4
  else if info = 27 then some 8
  else none

/-- Reads a head. -/
def readHead : List UInt8 → Option (Major × Argument × List UInt8)
  | [] => none
  | b :: rest =>
    let m := Major.ofByte b
    let info := b.toNat % 32
    if info = 31 then
      if m = .bytes ∨ m = .text ∨ m = .array ∨ m = .map then some (m, .indefinite, rest) else none
    else
      match followers? info with
      | none => none
      | some 0 => some (m, .value info 0, rest)
      | some w =>
        if rest.length < w then none
        else
          let n := leNat (rest.take w).reverse
          -- A simple value below thirty-two has a head of one byte, and no other.
          if m = .simple ∧ w = 1 ∧ n < 32 then none else some (m, .value n w, rest.drop w)

/-! ## Writing -/

/-- The order of keys in a map: by length, then by bytes. -/
def keyBefore (a b : String) : Bool :=
  let (x, y) := (a.toUTF8.data.toList, b.toUTF8.data.toList)
  x.length < y.length || (x.length == y.length && x ≤ y)

/-- A text, byte for byte. -/
def writeText (t : Text) : List UInt8 := head .text t.size ++ t.toList

/-- A whole number. -/
def writeNumber (n : Int) : List UInt8 :=
  if n < 0 then head .negative (-1 - n).toNat else head .natural n.toNat

/-- The simple values in use. -/
def falseCode : Nat := 20
/-- The simple value of truth. -/
def trueCode : Nat := 21
/-- The simple value that says nothing. -/
def nullCode : Nat := 22
/-- The simple value of what is not defined. -/
def undefinedCode : Nat := 23

mutual

/-- The canonical bytes of a document. -/
def write : Document → List UInt8
  | .null => head .simple nullCode
  | .bool b => head .simple (if b then trueCode else falseCode)
  | .number n => writeNumber n
  | .text t => writeText t
  | .list items => head .array items.length ++ writeItems items
  | .record fields =>
    let members := (writeFields fields).mergeSort fun a b => keyBefore a.1 b.1
    head .map fields.length ++ members.flatMap fun m => writeText m.1 ++ m.2

/-- The bytes of the members of a list. -/
def writeItems : List Document → List UInt8
  | [] => []
  | d :: rest => write d ++ writeItems rest

/-- The bytes of the values of a record, each with its key. -/
def writeFields : List (String × Document) → List (String × List UInt8)
  | [] => []
  | (name, d) :: rest => (name, write d) :: writeFields rest

end

/-! ## Reading -/

/-- An item as it was written. Bytes and texts may come in chunks. -/
inductive Item where
  /-- A number from zero up. -/
  | natural (n : Nat)
  /-- The number `-1 - n`. -/
  | negative (n : Nat)
  /-- Bytes. -/
  | bytes (chunks : List (List UInt8))
  /-- Text. -/
  | text (chunks : List (List UInt8))
  /-- A list. -/
  | array (items : List Item)
  /-- A map, keys and values in the order written. -/
  | map (pairs : List (Item × Item))
  /-- A tagged item. -/
  | tag (n : Nat) (content : Item)
  /-- A simple value. -/
  | simple (n : Nat)
  /-- A binary fraction of a width in bytes. -/
  | fraction (width bits : Nat)

/-- Reads something off the front of the bytes. -/
abbrev Step (α : Type) := List UInt8 → Option (α × List UInt8)

/-- The byte that ends members of indefinite number. -/
def breakByte : UInt8 := 0xFF

/-- Most levels of lists, maps and tags within tags: the default of `MaxNestedLevels`. -/
def maxLevels : Nat := 32

/-- Most members of a list or a map: the default of `MaxArrayElements` and `MaxMapPairs`. -/
def maxMembers : Nat := 131072

/-- A step taken a number of times. -/
def times {α : Type} (step : Step α) : Nat → Step (List α)
  | 0, bs => some ([], bs)
  | n + 1, bs => do
    let (a, bs) ← step bs
    let (as, bs) ← times step n bs
    return (a :: as, bs)

/-- A step taken until a break is met, `fuel` times at most. -/
def untilBreak {α : Type} (step : Step α) : (fuel : Nat) → Step (List α)
  | 0, _ => none
  | fuel + 1, bs =>
    if bs.head? = some breakByte then some ([], bs.drop 1)
    else do
      let (a, bs) ← step bs
      let (as, bs) ← untilBreak step fuel bs
      return (a :: as, bs)

/-- The given number of bytes. -/
def readBytes (n : Nat) : Step (List UInt8) := fun bs =>
  if bs.length < n then none else some (bs.take n, bs.drop n)

/-- One chunk of a string of indefinite length: a definite string of the same kind. -/
def readChunk (m : Major) : Step (List UInt8) := fun bs => do
  let (m', arg, bs) ← readHead bs
  match arg with
  | .value n _ => if m' = m then readBytes n bs else none
  | .indefinite => none

/-- The chunks of a string. -/
def readChunks (m : Major) (arg : Argument) : Step (List (List UInt8)) := fun bs =>
  match arg with
  | .value n _ => (readBytes n bs).map fun (c, bs) => ([c], bs)
  | .indefinite => untilBreak (readChunk m) bs.length bs

/-- The members of a list or a map. -/
def readMembers {α : Type} (step : Step α) (arg : Argument) : Step (List α) := fun bs =>
  match arg with
  | .value n _ => if maxMembers < n then none else times step n bs
  | .indefinite => do
    let (as, bs) ← untilBreak step bs.length bs
    if maxMembers < as.length then none else some (as, bs)

/-- A key and its value. -/
def readPair (step : Step Item) : Step (Item × Item) := fun bs => do
  let (k, bs) ← step bs
  let (v, bs) ← step bs
  return ((k, v), bs)

/-- A simple value or a binary fraction, by the width of its number. -/
def simpleOrFraction (n width : Nat) : Item :=
  if width ≤ 1 then .simple n else .fraction width n

/-- An item that is no tag; `inner?` reads members, if a level is left for them. -/
def readContent (inner? : Option (Step Item)) : Step Item := fun bs => do
  let (m, arg, bs) ← readHead bs
  match m, arg with
  | .natural, .value n _ => return (.natural n, bs)
  | .negative, .value n _ => return (.negative n, bs)
  | .simple, .value n w => return (simpleOrFraction n w, bs)
  | .bytes, arg => return (← readChunks .bytes arg bs).map .bytes id
  | .text, arg => return (← readChunks .text arg bs).map .text id
  | .array, arg => return (← readMembers (← inner?) arg bs).map .array id
  | .map, arg => return (← readMembers (readPair (← inner?)) arg bs).map .map id
  | _, _ => none

/-- Whether a tag comes next. -/
def startsTag (bs : List UInt8) : Bool := bs.head?.map Major.ofByte = some .tag

/-- An item, with one tag in front of it or none; a further tag takes a level. -/
def readWith (inner? : Option (Step Item)) : Step Item := fun bs =>
  if startsTag bs then do
    let (_, arg, bs) ← readHead bs
    match arg with
    | .indefinite => none
    | .value n _ =>
      let inner ← if startsTag bs then inner? else some (readContent inner?)
      let (item, bs) ← inner bs
      return (.tag n item, bs)
  else readContent inner? bs

/-- An item with so many levels within it. -/
def readItem : (levels : Nat) → Step Item
  | 0 => readWith none
  | levels + 1 => readWith (some (readItem levels))

/-- The one item that the bytes hold. -/
def read (bs : List UInt8) : Option Item :=
  match readItem maxLevels bs with
  | some (item, []) => some item
  | _ => none

end ManagedImage.Report.Cbor

/-- A summary as canonical CBOR. -/
def ManagedImage.Report.Summary.cbor (s : ManagedImage.Report.Summary) : List UInt8 :=
  ManagedImage.Report.Cbor.write s.document
