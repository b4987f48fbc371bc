/-
The syntax of a TOML file: a list of headings and assignments.

A heading opens a table or one more table of an array; an assignment gives a
value to a key. A key is a list of names, and a value is a scalar, an array or a
table between braces. Nothing here knows which keys belong together; that is for
the tree that is grown from the statements.

A text between triple quotes may end in one or two more quotes of its own. A
backslash before a line end takes away the line end and all blank space after it.
-/
import ManagedImage.Settings.Toml.Scalar
import ManagedImage.Text

set_option autoImplicit false

namespace ManagedImage.Settings.Toml

/-- A list of names. -/
abbrev Key := List String

/-- A value as it was written. -/
inductive Value where
  /-- A value that holds no other. -/
  | scalar (s : Scalar)
  /-- An array. -/
  | array (items : List Value)
  /-- A table between braces. -/
  | inline (entries : List (Key × Value))

/-- One statement of a file. -/
inductive Statement where
  /-- The heading of a table. -/
  | table (key : Key)
  /-- The heading of one more table of an array. -/
  | arrayTable (key : Key)
  /-- A value for a key. -/
  | assign (key : Key) (value : Value)

/-! ## Blank space -/

/-- Whether a character is a blank within a line. -/
def isBlank (c : Char) : Bool := c = ' ' || c = '\t'

/-- Whether a character ends a line. -/
def isLineEnd (c : Char) : Bool := c = '\n' || c = '\r'

/-- The characters after blanks. -/
def skipBlanks (cs : List Char) : List Char := cs.dropWhile isBlank

/-- The characters of a comment left out, up to the end of its line. -/
def skipComment (cs : List Char) : List Char := cs.dropWhile (!isLineEnd ·)

/-- The characters after blank space, line ends and comments. -/
def skipSpace : List Char → List Char
  | [] => []
  | c :: cs =>
    if isBlank c || isLineEnd c then skipSpace cs
    else if c = '#' then skipSpace (skipComment cs)
    else c :: cs
termination_by cs => cs.length
decreasing_by
  · simp
  · have := (List.dropWhile_sublist (l := cs) fun c => !isLineEnd c).length_le
    simp [skipComment]
    omega

/-! ## Texts -/

/-- The code point with the given hexadecimal digits. -/
def codePoint? (ds : List Char) : Option Char :=
  let n := digitsValue 16 ds
  if ds.all isHexDigit && (n < 0xD800 || (0xE000 ≤ n && n < 0x110000)) then some (Char.ofNat n)
  else none

/-- The character of an escape of one letter. -/
def shortEscape? (c : Char) : Option Char :=
  match c with
  | 'b' => some (Char.ofNat 0x08)
  | 't' => some '\t'
  | 'n' => some '\n'
  | 'f' => some (Char.ofNat 0x0C)
  | 'r' => some '\r'
  | 'e' => some (Char.ofNat 0x1B)
  | '"' => some '"'
  | '\\' => some '\\'
  | _ => none

/-- The character of an escape, after its backslash. -/
def escape : Step Char
  | 'x' :: cs => (codePoint? (cs.take 2)).bind fun c =>
      if cs.length < 2 then none else some (c, cs.drop 2)
  | 'u' :: cs => (codePoint? (cs.take 4)).bind fun c =>
      if cs.length < 4 then none else some (c, cs.drop 4)
  | 'U' :: cs => (codePoint? (cs.take 8)).bind fun c =>
      if cs.length < 8 then none else some (c, cs.drop 8)
  | c :: cs => (shortEscape? c).map fun d => (d, cs)
  | [] => none

/-- A text on one line, after its opening quote. -/
def lineText : (fuel : Nat) → Step (List Char)
  | 0, _ => none
  | fuel + 1, cs =>
    match cs with
    | [] => none
    | '"' :: cs => some ([], cs)
    | '\\' :: cs => do
      let (c, cs) ← escape cs
      let (more, cs) ← lineText fuel cs
      return (c :: more, cs)
    | c :: cs =>
      if isLineEnd c then none
      else do
        let (more, cs) ← lineText fuel cs
        return (c :: more, cs)

/-- A text on one line without escapes, after its opening quote. -/
def literalLineText (cs : List Char) : Option (List Char × List Char) :=
  let (text, rest) := cs.span fun c => c ≠ '\'' && !isLineEnd c
  match rest with
  | '\'' :: rest => some (text, rest)
  | _ => none

/-- The characters without a line end at the start. -/
def dropFirstLineEnd : List Char → List Char
  | '\n' :: cs => cs
  | '\r' :: '\n' :: cs => cs
  | cs => cs

/-- Most quotes in a row within a text over several lines: the three at its end and two before
them. After an escaped backslash there may be one more. -/
def maxQuotes (afterBackslash : Bool) : Nat := if afterBackslash then 6 else 5

/-- A text over several lines, after its opening quotes. -/
def blockText : (fuel : Nat) → (afterBackslash : Bool) → Step (List Char)
  | 0, _, _ => none
  | fuel + 1, afterBackslash, cs =>
    match cs with
    | [] => none
    | '"' :: _ =>
      -- The last three quotes of a row close the text; those before them belong to it.
      let (quotes, rest) := cs.span (· = '"')
      if maxQuotes afterBackslash < quotes.length then none
      else if 3 ≤ quotes.length then some (quotes.drop 3, rest)
      else do
        let (more, cs) ← blockText fuel false rest
        return (quotes ++ more, cs)
    | '\\' :: cs =>
      let (space, rest) := cs.span fun c => isBlank c || isLineEnd c
      -- A line that ends in a backslash goes on at the next text.
      if space.contains '\n' then blockText fuel false rest
      else do
        let (c, cs') ← escape cs
        let (more, cs') ← blockText fuel (cs.head? = some '\\') cs'
        return (c :: more, cs')
    | c :: cs => do
      let (more, cs) ← blockText fuel false cs
      return (c :: more, cs)

/-- A text over several lines without escapes, after its opening quotes. -/
def literalBlockText : (fuel : Nat) → Step (List Char)
  | 0, _ => none
  | fuel + 1, cs =>
    match cs with
    | [] => none
    | '\'' :: _ =>
      let (quotes, rest) := cs.span (· = '\'')
      if maxQuotes false < quotes.length then none
      else if 3 ≤ quotes.length then some (quotes.drop 3, rest)
      else do
        let (more, cs) ← literalBlockText fuel rest
        return (quotes ++ more, cs)
    | c :: cs => do
      let (more, cs) ← literalBlockText fuel cs
      return (c :: more, cs)

/-- A quoted text of any kind. -/
def quotedText : Step String := fun cs =>
  let read := match cs with
    | '"' :: '"' :: '"' :: cs => blockText (cs.length + 1) false (dropFirstLineEnd cs)
    | '\'' :: '\'' :: '\'' :: cs => literalBlockText (cs.length + 1) (dropFirstLineEnd cs)
    | '"' :: cs => lineText (cs.length + 1) cs
    | '\'' :: cs => literalLineText cs
    | _ => none
  read.map fun (text, rest) => (String.ofList text, rest)

/-! ## Keys -/

/-- Whether a character can stand in a name without quotes. -/
def inBareName (c : Char) : Bool := c.isAlphanum || c = '_' || c = '-'

/-- One name of a key. -/
def name : Step String := fun cs =>
  match cs with
  | '"' :: cs => (lineText (cs.length + 1) cs).map fun (text, rest) => (String.ofList text, rest)
  | '\'' :: cs => (literalLineText cs).map fun (text, rest) => (String.ofList text, rest)
  | _ =>
    let (text, rest) := cs.span inBareName
    if text.isEmpty then none else some (String.ofList text, rest)

/-- The names of a key with points between them, up to what ends it. -/
def names (closing : Char) : (fuel : Nat) → Step Key
  | 0, _ => none
  | fuel + 1, cs => do
    let (first, cs) ← name (skipBlanks cs)
    match skipBlanks cs with
    | [] => none
    | c :: cs =>
      if c = closing then return ([first], cs)
      else if c = '.' then
        let (more, cs) ← names closing fuel cs
        return (first :: more, cs)
      else none

/-- A key up to what ends it. -/
def key (closing : Char) : Step Key := fun cs => names closing (cs.length + 1) cs

/-! ## Values -/

mutual

/-- A value. Each value and each further member takes some of the fuel. -/
def value : (fuel : Nat) → Step Value
  | 0, _ => none
  | fuel + 1, cs =>
    match skipBlanks cs with
    | '[' :: cs => (arrayItems fuel cs).map fun (items, rest) => (.array items, rest)
    | '\x7b' :: cs => (inlineEntries fuel cs).map fun (es, rest) => (.inline es, rest)
    | cs =>
      if cs.head?.any fun c => c = '"' || c = '\'' then
        (quotedText cs).map fun (t, rest) => (.scalar (.text t), rest)
      else (scalarWord cs).map fun (s, rest) => (.scalar s, rest)

/-- The members of an array, after its bracket or a comma. -/
def arrayItems : (fuel : Nat) → Step (List Value)
  | 0, _ => none
  | fuel + 1, cs =>
    match skipSpace cs with
    | ']' :: rest => some ([], rest)
    | cs =>
      match value fuel cs with
      | none => none
      | some (v, cs) =>
        match skipSpace cs with
        | ',' :: cs => (arrayItems fuel cs).map fun (vs, rest) => (v :: vs, rest)
        | ']' :: rest => some ([v], rest)
        | _ => none

/-- The entries of a table between braces, after its brace or a comma. -/
def inlineEntries : (fuel : Nat) → Step (List (Key × Value))
  | 0, _ => none
  | fuel + 1, cs =>
    match skipSpace cs with
    | '\x7d' :: rest => some ([], rest)
    | cs =>
      match key '=' cs with
      | none => none
      | some (k, cs) =>
        match value fuel cs with
        | none => none
        | some (v, cs) =>
          match skipSpace cs with
          | ',' :: cs => (inlineEntries fuel cs).map fun (es, rest) => ((k, v) :: es, rest)
          | '\x7d' :: rest => some ([(k, v)], rest)
          | _ => none

end

/-! ## Statements -/

/-- The rest of a line after a statement: blanks, perhaps a comment, and the line end. -/
def lineRest (cs : List Char) : Option (List Char) :=
  match skipBlanks cs with
  | [] => some []
  | c :: cs => if c = '#' then some (skipComment cs) else if isLineEnd c then some cs else none

/-- One statement. -/
def statement : Step Statement := fun cs =>
  match cs with
  | '[' :: '[' :: cs => do
    let (k, cs) ← key ']' cs
    let (_, cs) ← exactly ']' cs
    return (.arrayTable k, cs)
  | '[' :: cs => (key ']' cs).map fun (k, cs) => (.table k, cs)
  | cs => do
    let (k, cs) ← key '=' cs
    let (v, cs) ← value (2 * cs.length + 2) cs
    return (.assign k v, cs)

/-- The statements of a file, one a line. -/
def statements : (fuel : Nat) → List Char → Option (List Statement)
  | 0, _ => none
  | fuel + 1, cs =>
    match skipSpace cs with
    | [] => some []
    | cs => do
      let (s, cs) ← statement cs
      return s :: (← statements fuel (← lineRest cs))

/-- Whether a character may stand in a file, given the one after it: no control characters but
blanks and line ends, and a carriage return only before a line feed. -/
def isAllowed (c : Char) (next : Option Char) : Bool :=
  if c = '\r' then next = some '\n'
  else c = '\t' || c = '\n' || (0x20 ≤ c.toNat && c.toNat ≠ 0x7F)

/-- Whether all characters may stand in a file. -/
def allAllowed : List Char → Bool
  | [] => true
  | c :: cs => isAllowed c cs.head? && allAllowed cs

/-- The bytes without a mark of their order at the start. -/
def dropByteOrderMark : List UInt8 → List UInt8
  | 0xFF :: 0xFE :: bs => bs
  | 0xFE :: 0xFF :: bs => bs
  | 0xEF :: 0xBB :: 0xBF :: bs => bs
  | bs => bs

/-- The statements of a file, if it is one. -/
def parse (data : List UInt8) : Option (List Statement) := do
  let text ← (Text.ofList (dropByteOrderMark data)).toString?
  let cs := text.toList
  if allAllowed cs then statements (cs.length + 1) cs else none

end ManagedImage.Settings.Toml
