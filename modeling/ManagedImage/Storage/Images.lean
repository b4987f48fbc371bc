/-
Images opened from files and kept in a cache.

An image is known by the place its file has once all links are followed. Opening
one is reading and parsing its file; whatever goes wrong is reported with the
place in front.
-/
import ManagedImage.Storage.Cache
import ManagedImage.Storage.FileTree
import ManagedImage.Metadata.Image

set_option autoImplicit false

namespace ManagedImage

/-- Parses an image that was read from a path. -/
def Image.parseAt (path : Text) (data : ByteArray) : Except Fault Image := do
  let img ← Image.ofFile (← Portable.File.parse data)
  return { img with path }

namespace Storage.FileTree

/-- The key of a path: the path of its place, free of links. -/
def imageKey (t : FileTree) (path : Text) : Except Fault Text :=
  match t.resolve path with
  | .ok p => .ok (Path.render p)
  | .error w => .error (.context ("metadata: failed to resolve " ++ path ++ ": ") (resolveFault w))

/-- Reads the image of a key. -/
def readImage (t : FileTree) (key : Text) : Except Fault Image :=
  match t.read key with
  | .error f => .error (.context "pe: failed to read file: " f)
  | .ok data => Image.parseAt key data

/-- Loads the image of a key. -/
def loadImage (t : FileTree) (key : Text) : Except Fault Image :=
  match t.readImage key with
  | .ok img => .ok img
  | .error f => .error (.context ("metadata: failed to open " ++ key ++ ": ") f)

end Storage.FileTree

end ManagedImage
