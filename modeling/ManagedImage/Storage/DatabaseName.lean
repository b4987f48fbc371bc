/-
Names of databases.

A name is a path, and what follows a question mark in it is no part of the path,
unless nothing stands before it. A name that starts with `file:` is an address:
after an authority, which can only be this machine, comes a path in which bytes
may be escaped, and options may follow it. The options say how the file may be
used, or that there is none at all; the empty path and `:memory:` say that too.
-/
import ManagedImage.Text
import ManagedImage.Number.Literal

set_option autoImplicit false

namespace ManagedImage.Storage

/-- How the file of a database may be used. -/
inductive Access where
  /-- It is only read. -/
  | readOnly
  /-- It is changed, but it has to be there. -/
  | readWrite
  /-- It is changed, and made if it is not there. -/
  | create
  /-- There is none. -/
  | memory
deriving DecidableEq, Repr

/-- What the name of a database stands for. -/
inductive DatabaseTarget where
  /-- A database that leaves no file. -/
  | transient
  /-- The database in a file. -/
  | file (path : Text) (access : Access)

namespace DatabaseName

/-! ## Addresses -/

/-- The bytes with their escapes undone: a percent sign and two hexadecimal digits. An escaped
zero ends them. -/
def unescape : List UInt8 → List UInt8
  | 0x25 :: x :: y :: rest =>
    match Literal.natural 16 256 [x, y] with
    | .ok 0 => []
    | .ok n => UInt8.ofNat n :: unescape rest
    | .error _ => 0x25 :: unescape (x :: y :: rest)
  | b :: rest => b :: unescape rest
  | [] => []
termination_by bs => bs.length

/-- The part before the first byte `mark` and, if it is there, the part after it. -/
def splitAt (mark : UInt8) (bs : List UInt8) : List UInt8 × Option (List UInt8) :=
  match bs.dropWhile (· ≠ mark) with
  | [] => (bs, none)
  | _ :: rest => (bs.takeWhile (· ≠ mark), some rest)

/-- The options of a query with their values. One without a name is left out. -/
def options (query : List UInt8) : List (Text × Text) :=
  let pairs := (query.splitOn 0x26).map fun piece =>
    let (name, value) := splitAt 0x3D piece
    (Text.ofList (unescape name), Text.ofList (unescape (value.getD [])))
  pairs.filter fun p => !p.1.isEmpty

/-- The access with a name. -/
def accessOf? (name : Text) : Option Access :=
  if name = "ro" then some .readOnly
  else if name = "rw" then some .readWrite
  else if name = "rwc" then some .create
  else if name = "memory" then some .memory
  else none

/-- Whether one access may be narrowed to another. What has no file may become anything. -/
def allows : (granted asked : Access) → Bool
  | .memory, _ => true
  | _, .memory => true
  | .create, _ => true
  | .readWrite, asked => asked ≠ .create
  | .readOnly, asked => asked = .readOnly

/-- The access after an option; `none` if the option is refused. -/
def applyOption (granted : Access) (option : Text × Text) : Option Access :=
  let (name, value) := option
  if name = "mode" then do
    let asked ← accessOf? value
    if allows granted asked then some asked else none
  else if name = "cache" then
    if value = "shared" ∨ value = "private" then some granted else none
  else some granted

/-- What follows the authority of an address; `none` if that is another machine. -/
def withoutAuthority (bs : List UInt8) : Option (List UInt8) :=
  match bs with
  | 0x2F :: 0x2F :: rest =>
    let authority := Text.ofList (rest.takeWhile (· ≠ 0x2F))
    if authority.isEmpty ∨ authority = "localhost" then some (rest.dropWhile (· ≠ 0x2F)) else none
  | bs => some bs

/-- What a path and an access stand for. -/
def targetOf (path : Text) (access : Access) : DatabaseTarget :=
  if path.isEmpty ∨ path = ":memory:" ∨ access = .memory then .transient else .file path access

/-- What an address stands for, given what follows its mark. -/
def ofAddress? (bs : List UInt8) : Option DatabaseTarget := do
  let bs ← withoutAuthority bs
  let (path, query) := splitAt 0x3F (splitAt 0x23 bs).1
  let access ← (options (query.getD [])).foldlM applyOption .create
  return targetOf (Text.ofList (unescape path)) access

/-! ## Names -/

/-- The mark of an address. -/
def addressMark : List UInt8 := [0x66, 0x69, 0x6C, 0x65, 0x3A]

/-- What a name stands for; `none` for an address that is refused. -/
def target? (name : Text) : Option DatabaseTarget :=
  let bs := name.toList
  if addressMark.isPrefixOf bs then ofAddress? (bs.drop addressMark.length)
  else
    let path := if bs.head? = some 0x3F then bs else (splitAt 0x3F bs).1
    some (targetOf (Text.ofList path) .create)

end DatabaseName

end ManagedImage.Storage
