/-
Documents: the one shape in which a summary is written down.

A document is a tree of numbers, texts, lists and records. The fields of a
record keep their order, and a field that would say nothing is left out of it
when the record is made, so the written forms do not each decide that anew.
-/
import ManagedImage.Report.Summary

set_option autoImplicit false

namespace ManagedImage.Report

/-- A tree of values. -/
inductive Document where
  /-- No value. -/
  | null
  /-- A truth value. -/
  | bool (b : Bool)
  /-- A whole number. -/
  | number (n : Int)
  /-- A text. -/
  | text (t : Text)
  /-- A list. -/
  | list (items : List Document)
  /-- Named values in order. -/
  | record (fields : List (String × Document))

namespace Document

/-- A field that is always there. -/
def always (name : String) (d : Document) : List (String × Document) := [(name, d)]

/-- A text that is left out when it is empty. -/
def textUnlessEmpty (name : String) (t : Text) : List (String × Document) :=
  if t.isEmpty then [] else [(name, .text t)]

/-- A number that is left out when it is zero. -/
def numberUnlessZero (name : String) (n : Int) : List (String × Document) :=
  if n = 0 then [] else [(name, .number n)]

/-- A list that may not have been started. -/
def ofList? {α : Type} (f : α → Document) : Option (List α) → Document
  | none => .null
  | some xs => .list (xs.map f)

end Document

open Document

/-- The number of a 32-bit word. -/
def wordNumber (w : UInt32) : Document := .number w.toNat

/-- The document of a stream. -/
def StreamEntry.document (s : StreamEntry) : Document :=
  .record [("name", .text s.name), ("offset", wordNumber s.offset), ("size", wordNumber s.size)]

/-- The document of a table. -/
def TableEntry.document (t : TableEntry) : Document :=
  .record [("name", .text t.name), ("rows", wordNumber t.rows), ("sorted", .bool t.sorted)]

/-- The document of a method. -/
def MethodEntry.document (m : MethodEntry) : Document :=
  .record (
    always "token" (wordNumber m.token.value)
    ++ always "name" (.text m.name)
    ++ always "signature" (.text m.signature)
    ++ numberUnlessZero "rva" m.rva.toNat
    ++ numberUnlessZero "code_size" m.codeSize.toInt
    ++ numberUnlessZero "max_stack" m.maxStack.toInt
    ++ numberUnlessZero "clauses" m.clauses.toInt)

/-- The document of a type. -/
def TypeEntry.document (t : TypeEntry) : Document :=
  .record (
    always "token" (wordNumber t.token.value)
    ++ always "name" (.text t.name)
    ++ textUnlessEmpty "extends" t.base
    ++ always "fields" (.number t.fields.toInt)
    ++ (if t.methods.isEmpty then [] else
      always "methods" (.list (t.methods.map MethodEntry.document))))

/-- The document of a summary. -/
def Summary.document (s : Summary) : Document :=
  .record (
    textUnlessEmpty "path" s.path
    ++ textUnlessEmpty "assembly" s.assembly
    ++ always "metadata_version" (.text s.version)
    ++ always "table_stream" (.text s.tableStream)
    ++ always "pe32_plus" (.bool s.is64)
    ++ textUnlessEmpty "entry_point" s.entryPoint
    ++ always "streams" (ofList? StreamEntry.document s.streams)
    ++ always "tables" (ofList? TableEntry.document s.tables)
    ++ always "types" (ofList? TypeEntry.document s.types)
    ++ always "user_strings" (.number s.literals.toInt))

end ManagedImage.Report
