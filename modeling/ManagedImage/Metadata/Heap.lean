/-
The four heaps.

Strings are zero-terminated and addressed by offset, so an index may point into
the middle of one. Blobs and string literals carry their length in front.
GUIDs are sixteen bytes each and counted from one, zero standing for the GUID
of zeros. An image without a heap behaves as if it had an empty one, whose index
zero is still the empty string and the empty blob.
-/
import ManagedImage.Bytes.Reader
import ManagedImage.Text.Units

set_option autoImplicit false

namespace ManagedImage

/-! ## Strings -/

/-- The heap of names. -/
structure StringHeap where
  /-- Its bytes. -/
  region : Region
  /-- The width of an index into it. -/
  width : Nat

namespace StringHeap

/-- The string at an offset. -/
def get (h : StringHeap) (idx : Nat) : Except Fault Text :=
  if idx = 0 ∧ h.region.len = 0 then .ok Text.empty
  else if h.region.len ≤ idx then
    .error (.bounds .heap h.region.base
      ("string index 0x" ++ hex idx ++ s!" beyond #Strings ({h.region.len} bytes)" : String))
  else match h.region.findZero? idx with
    | some stop => .ok (h.region.text idx stop)
    | none => .error (.format .heap (h.region.base + idx : Nat)
        ("unterminated string at 0x" ++ hex idx : String))

/-- The non-empty terminated strings from an offset on, each with its own offset. -/
def entriesFrom (g : Region) (i : Nat) : List (Nat × Text) :=
  if i < g.len then
    match g.findZero? i with
    | some stop =>
      if h : i < stop then (i, g.text i stop) :: entriesFrom g (stop + 1)
      else entriesFrom g (i + 1)
    | none => []
  else []
termination_by g.len - i

/-- Every non-empty string with its offset, in order. -/
def entries (h : StringHeap) : List (Nat × Text) := entriesFrom h.region 1

end StringHeap

/-! ## Entries with a length in front -/

/-- The fault of an index past the heap. -/
def heapIndexFault (g : Region) (idx : Nat) (what : String) : Fault :=
  .bounds .heap g.base (what ++ " index 0x" ++ hex idx ++ s!" beyond heap ({g.len} bytes)" : String)

/-- The bytes of the entry at an offset, its length in front of them. -/
def Region.entry (g : Region) (idx : Nat) (what : String) : Except Fault ByteArray :=
  if g.len ≤ idx then .error (heapIndexFault g idx what)
  else match Read.lengthField (g.reader.seekTo idx) with
    | .error _ _ => .error (.bounds .heap (g.base + idx : Nat)
        (what ++ " length at 0x" ++ hex idx ++ " truncated" : String))
    | .ok n r => match Read.bytes n r with
      | .ok data _ => .ok data
      | .error _ _ => .error (.bounds .heap (g.base + idx : Nat)
          (what ++ " at 0x" ++ hex idx ++ s!" of {n} bytes exceeds heap" : String))

/-- The heap of signatures and other binary values. -/
structure BlobHeap where
  /-- Its bytes. -/
  region : Region
  /-- The width of an index into it. -/
  width : Nat

/-- The blob at an offset. -/
def BlobHeap.get (h : BlobHeap) (idx : Nat) : Except Fault ByteArray :=
  if idx = 0 ∧ h.region.len = 0 then .ok ByteArray.empty else h.region.entry idx "blob"

/-! ## GUIDs -/

/-- The heap of GUIDs. -/
structure GuidHeap where
  /-- Its bytes. -/
  region : Region
  /-- The width of an index into it. -/
  width : Nat

namespace GuidHeap

/-- The number of GUIDs. -/
def count (h : GuidHeap) : Nat := h.region.len / 16

/-- The GUID with a one-based index; zero is the GUID of zeros. -/
def get (h : GuidHeap) (idx : Nat) : Except Fault ByteArray :=
  if idx = 0 then .ok (zeroBytes 16).toByteArray
  else match h.region.slice ((idx - 1) * 16 : Nat) 16 with
    | .ok g => .ok g
    | .error _ => .error (.bounds .heap h.region.base
        s!"guid index {idx} beyond #GUID ({h.count} entries)")

end GuidHeap

/-! ## String literals -/

/-- The heap of string literals. -/
structure LiteralHeap where
  /-- Its bytes. -/
  region : Region

namespace LiteralHeap

/-- The width of an index: literals are only referred to by tokens. -/
def width : Nat := 4

/-- The bytes of a literal with its flag byte. -/
def raw (h : LiteralHeap) (idx : Nat) : Except Fault (List UInt8) := do
  return (← h.region.entry idx "user string").data.toList

/-- The code units of a literal. The flag byte is the odd one at the end. -/
def units (h : LiteralHeap) (idx : Nat) : Except Fault (List Nat) := do
  return Units.ofBytes (← h.raw idx)

/-- The text of a literal, unpaired surrogates replaced. -/
def get (h : LiteralHeap) (idx : Nat) : Except Fault Text := do
  return Text.ofChars (Units.decode (← h.units idx))

/-- The flag byte of a literal: whether it holds more than plain characters. -/
def isSpecial (h : LiteralHeap) (idx : Nat) : Except Fault Bool := do
  let bs ← h.raw idx
  return bs.length % 2 = 1 && bs.getLast? != some 0

/-- The literals from an offset on. Padding or a broken entry ends the list. -/
def entriesFrom (h : LiteralHeap) (i : Nat) : List (Nat × Text) :=
  if _hi : i < h.region.len then
    match Read.lengthField (h.region.reader.seekTo i) with
    | .error _ _ => []
    | .ok n r =>
      if n = 0 then []
      else match h.get i with
        | .error _ => []
        | .ok s =>
          if _hn : i < r.offset + n then (i, s) :: h.entriesFrom (r.offset + n) else []
  else []
termination_by h.region.len - i

/-- Every literal with its offset, in order. -/
def entries (h : LiteralHeap) : List (Nat × Text) := h.entriesFrom 1

end LiteralHeap

end ManagedImage
