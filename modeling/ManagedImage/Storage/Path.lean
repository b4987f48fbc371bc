/-
Paths.

A path as it is written is text: names with slashes between them. A place is the
list of names that leads to it from the root, without dots. Making a path
absolute is done on the names alone and asks nobody whether they exist; so two
dots take back the name before them even if that name is a link.
-/
import ManagedImage.Text

set_option autoImplicit false

namespace ManagedImage.Storage

/-- A place in the file system: the names from the root on. -/
abbrev Place := List Text

namespace Path

/-- The byte between names. -/
def slash : UInt8 := 0x2F

/-- The names of a written path, empty ones left out. -/
def names (path : Text) : List Text :=
  ((path.toList.splitOn slash).filter (!·.isEmpty)).map Text.ofList

/-- Whether a written path starts at the root. -/
def isAbsolute (path : Text) : Bool := path.toList.head? = some slash

/-- The name that stays where it is. -/
def here : Text := "."

/-- The name that leads back. -/
def up : Text := ".."

/-- One name further from a place. -/
def step (at_ : Place) (name : Text) : Place :=
  if name = here then at_ else if name = up then at_.dropLast else at_ ++ [name]

/-- Where a written path starts. -/
def origin (cwd : Place) (path : Text) : Place := if isAbsolute path then [] else cwd

/-- The place that a path names, by its names alone. -/
def absolute (cwd : Place) (path : Text) : Place :=
  (names path).foldl step (origin cwd path)

/-- The path of a place. -/
def render (p : Place) : Text :=
  if p.isEmpty then "/" else Text.concat (p.map fun name => ("/" : Text) ++ name)

/-- The place above. -/
def parent (p : Place) : Place := p.dropLast

end Path

end ManagedImage.Storage
