import ManagedImage.Assemble.Body
import ManagedImage.Assemble.Builder
import ManagedImage.Assemble.Coded
import ManagedImage.Assemble.Schema
import ManagedImage.Bytes.Compressed
import ManagedImage.Bytes.Reader
import ManagedImage.Bytes.Region
import ManagedImage.Bytes.Word
import ManagedImage.Code.Body
import ManagedImage.Code.Cursor
import ManagedImage.Code.Effect
import ManagedImage.Code.Instruction
import ManagedImage.Code.Opcode
import ManagedImage.Code.Resolve
import ManagedImage.Code.Simulation
import ManagedImage.Code.Slot
import ManagedImage.Code.Statement
import ManagedImage.Command.Dump
import ManagedImage.Command.Flag
import ManagedImage.Command.Line
import ManagedImage.Command.Listing
import ManagedImage.Command.Lookup
import ManagedImage.Command.Overview
import ManagedImage.Command.Print
import ManagedImage.Command.Run
import ManagedImage.Fault
import ManagedImage.Main
import ManagedImage.Metadata.Accessor
import ManagedImage.Metadata.CodedIndex
import ManagedImage.Metadata.Flags
import ManagedImage.Metadata.Heap
import ManagedImage.Metadata.Image
import ManagedImage.Metadata.Names
import ManagedImage.Metadata.Ownership
import ManagedImage.Metadata.Schema
import ManagedImage.Metadata.Table
import ManagedImage.Metadata.TableId
import ManagedImage.Metadata.Token
import ManagedImage.Number.Binary
import ManagedImage.Number.Literal
import ManagedImage.Number.Instances
import ManagedImage.Number.Shortest
import ManagedImage.Portable.File
import ManagedImage.Portable.Section
import ManagedImage.Report.Cbor
import ManagedImage.Report.Database
import ManagedImage.Report.Document
import ManagedImage.Report.Json
import ManagedImage.Report.Reading
import ManagedImage.Report.Script
import ManagedImage.Report.Summary
import ManagedImage.Settings.Config
import ManagedImage.Settings.Toml.Scalar
import ManagedImage.Settings.Toml.Syntax
import ManagedImage.Settings.Toml.Tree
import ManagedImage.Signature.Attribute
import ManagedImage.Signature.Decoder
import ManagedImage.Signature.Element
import ManagedImage.Signature.Lookup
import ManagedImage.Signature.Member
import ManagedImage.Signature.Method
import ManagedImage.Signature.TypeSig
import ManagedImage.Storage.Cache
import ManagedImage.Storage.DatabaseName
import ManagedImage.Storage.FileTree
import ManagedImage.Storage.Images
import ManagedImage.Storage.Path
import ManagedImage.Text
import ManagedImage.Text.Lower
import ManagedImage.Text.Printable
import ManagedImage.Text.Quoted
import ManagedImage.Text.Rune
import ManagedImage.Text.Template
import ManagedImage.Text.Units
import ManagedImage.Proofs.Bytes.Holding
import ManagedImage.Proofs.Assemble.Container
import ManagedImage.Proofs.Assemble.Root
import ManagedImage.Proofs.Metadata.Cells
import ManagedImage.Proofs.Metadata.CodedIndex
import ManagedImage.Proofs.Assemble.Widths
import ManagedImage.Proofs.Assemble.Rows
import ManagedImage.Proofs.Assemble.TableData
import ManagedImage.Proofs.Assemble.Run
import ManagedImage.Proofs.Assemble.Agreement
import ManagedImage.Proofs.Code.Locality
import ManagedImage.Proofs.Code.Walk
import ManagedImage.Proofs.Code.Follow
import ManagedImage.Proofs.Code.PathIndependence
import ManagedImage.Proofs.Code.Restore
import ManagedImage.Proofs.Bytes.Compressed
import ManagedImage.Proofs.Signature.Grammar
import ManagedImage.Proofs.Signature.Reads
import ManagedImage.Proofs.Signature.Params
import ManagedImage.Proofs.Signature.Decoding
import ManagedImage.Proofs.Signature.Rereading
import ManagedImage.Proofs.Signature.Types
import ManagedImage.Proofs.Bytes.Window
import ManagedImage.Proofs.Metadata.TableLayout
import ManagedImage.Proofs.Code.Disassembly
import ManagedImage.Proofs.Assemble.Journal
import ManagedImage.Proofs.Text.Encoding
import ManagedImage.Proofs.Assemble.Heaps
import ManagedImage.Proofs.Assemble.HeapAgreement
import ManagedImage.Proofs.Code.Bodies
import ManagedImage.Proofs.Assemble.BodyAgreement
import ManagedImage.Proofs.Metadata.Ownership
import ManagedImage.Proofs.Assemble.Ownership
import ManagedImage.Proofs.Code.Relabelling
import ManagedImage.Proofs.Code.LongForms
import ManagedImage.Proofs.Storage.CacheCalls
import ManagedImage.Proofs.Storage.CacheRuns
import ManagedImage.Proofs.Signature.Members
import ManagedImage.Proofs.Metadata.Streams
import ManagedImage.Proofs.Signature.Spelling
import ManagedImage.Proofs.Signature.OwnBytes
import ManagedImage.Proofs.Report.Completeness
import ManagedImage.Proofs.Report.Documents
import ManagedImage.Proofs.Report.Fields
import ManagedImage.Proofs.Report.RoundTrip
import ManagedImage.Proofs.Metadata.Search
import ManagedImage.Proofs.Metadata.CodedLookup
import ManagedImage.Proofs.Code.Counts
import ManagedImage.Proofs.Code.Observation
import ManagedImage.Proofs.Code.Origins
import ManagedImage.Proofs.Code.CallArguments
import ManagedImage.Proofs.Signature.Substitution
import ManagedImage.Proofs.Metadata.Nesting
import ManagedImage.Proofs.Metadata.ScopeWalk
import ManagedImage.Proofs.Metadata.TypeLookup
import ManagedImage.Proofs.Metadata.CodedTokens
import ManagedImage.Proofs.Code.BodyBounds
import ManagedImage.Proofs.Signature.Attributes
import ManagedImage.Proofs.Bytes.CompressedCodecs
import ManagedImage.Proofs.Signature.Naming
import ManagedImage.Proofs.Code.Prepasses
import ManagedImage.Proofs.Code.Classification
import ManagedImage.Proofs.Portable.Resolution
import ManagedImage.Proofs.Metadata.RowCursors
import ManagedImage.Proofs.Code.Provenance
import ManagedImage.Proofs.Metadata.StringEntries
import ManagedImage.Proofs.Bytes.WordWindow
import ManagedImage.Proofs.Bytes.NestedWindows
