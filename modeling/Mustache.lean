import Mustache.CommandLine.Arguments
import Mustache.CommandLine.Command
import Mustache.CommandLine.Run
import Mustache.Compile.Compiler
import Mustache.Compile.Error
import Mustache.Hash.ContentHash
import Mustache.Hash.Sha256
import Mustache.Host.Basic
import Mustache.Host.Datum
import Mustache.Host.Handle
import Mustache.Host.Inspection
import Mustache.Host.Schema
import Mustache.Host.Value
import Mustache.Json.Document
import Mustache.Json.Fields
import Mustache.Json.Number
import Mustache.Json.Printer
import Mustache.Json.Tree
import Mustache.Main
import Mustache.Number.Binary64
import Mustache.Number.Format
import Mustache.Number.Shortest
import Mustache.Program.Basic
import Mustache.Program.Blocks
import Mustache.Program.Cache
import Mustache.Program.Instruction
import Mustache.Program.Json
import Mustache.Render.Engine
import Mustache.Render.Error
import Mustache.Render.Escape
import Mustache.Render.Execute
import Mustache.Render.Loader
import Mustache.Render.Sink
import Mustache.Scope.Basic
import Mustache.Scope.Resolve
import Mustache.Storage.Artifact
import Mustache.Storage.Disk
import Mustache.Storage.FileError
import Mustache.Storage.Path
import Mustache.Storage.Timestamp
import Mustache.Template.Delimiters
import Mustache.Template.Layout
import Mustache.Template.Node
import Mustache.Template.StructuralError
import Mustache.Template.Tag
import Mustache.Template.Token
import Mustache.Text.Blank
import Mustache.Text.Hex
import Mustache.Text.Invisible
import Mustache.Text.Lossy
import Mustache.Text.Quoted
import Mustache.Text.Search
import Mustache.Text.Split
import Mustache.Proofs.Text.Bytes
import Mustache.Proofs.Program.Lowered
import Mustache.Proofs.Program.Lowering
import Mustache.Proofs.Render.Routine
import Mustache.Proofs.Render.Sink
import Mustache.Proofs.Render.Tree
import Mustache.Proofs.Template.Grammar
import Mustache.Proofs.Template.Pairing
import Mustache.Proofs.Template.StandaloneLines
import Mustache.Proofs.Compile.Alone
import Mustache.Proofs.Compile.LiteralText
import Mustache.Proofs.Template.Scanning
import Mustache.Proofs.Template.Renumbering
import Mustache.Proofs.Program.Fusing
import Mustache.Proofs.Render.Continuation
import Mustache.Proofs.Template.Concatenation
import Mustache.Proofs.Compile.Concatenation
import Mustache.Proofs.Text.Occurrence
import Mustache.Proofs.Template.CanonicalTokens
import Mustache.Proofs.Compile.CacheHistory
import Mustache.Proofs.Host.Settling
import Mustache.Proofs.Host.Deferral
import Mustache.Proofs.Scope.Deferral
import Mustache.Proofs.Render.Deferral
import Mustache.Proofs.Hash.HexText
import Mustache.Proofs.Hash.Spelling
import Mustache.Proofs.Json.Written
import Mustache.Proofs.Program.Documents
import Mustache.Proofs.Storage.Path
import Mustache.Proofs.Storage.Entry
import Mustache.Proofs.Storage.Disk
import Mustache.Proofs.Storage.Artifact
import Mustache.Proofs.Storage.HashNames
import Mustache.Proofs.Storage.Persistence
import Mustache.Proofs.Render.Lockstep
import Mustache.Proofs.Render.LimitedSink
import Mustache.Proofs.Scope.Lookups
import Mustache.Proofs.Render.Enquiries
import Mustache.Proofs.Render.Alike
import Mustache.Proofs.Render.AccessorHistory
import Mustache.Proofs.Host.NativeDocument
import Mustache.Proofs.Render.NativeDocument
import Mustache.Proofs.Host.Members
import Mustache.Proofs.Render.EscapedText
import Mustache.Proofs.Render.InertOutput
import Mustache.Proofs.Storage.Loading
import Mustache.Proofs.CommandLine.StoredPrograms
import Mustache.Proofs.Host.Parts
import Mustache.Proofs.Scope.Everywhere
import Mustache.Proofs.Scope.NestedMethods
import Mustache.Proofs.Program.Context
import Mustache.Proofs.Render.Context
import Mustache.Proofs.Render.InnerScopes
import Mustache.Proofs.Render.Inlining
import Mustache.Proofs.Scope.Padding
import Mustache.Proofs.Render.Padding
import Mustache.Proofs.Scope.Mentioned
import Mustache.Proofs.Render.Mentioned
import Mustache.Proofs.Render.CallDepth
import Mustache.Proofs.Json.Fields
import Mustache.Proofs.Storage.ReadBack
import Mustache.Proofs.Storage.Warming
import Mustache.Proofs.Render.Loads
import Mustache.Proofs.Render.LoaderAgreement
import Mustache.Proofs.Template.OpenTags
import Mustache.Proofs.Template.Flattening
import Mustache.Proofs.Template.PlacedTags
import Mustache.Proofs.Template.LineNumbers
import Mustache.Proofs.Program.Items
import Mustache.Proofs.Template.Comments
import Mustache.Proofs.Compile.Comments
import Mustache.Proofs.Template.CarriageReturns
import Mustache.Proofs.Compile.CarriageReturns
import Mustache.Proofs.Program.Balance
import Mustache.Proofs.Program.Matching
import Mustache.Proofs.Program.NormalForm
import Mustache.Proofs.Scope.Paths
import Mustache.Proofs.Render.Complement
import Mustache.Proofs.Scope.Noted
import Mustache.Proofs.Render.Confinement
import Mustache.Proofs.Scope.Hierarchy
import Mustache.Proofs.Scope.RequestingFrame
import Mustache.Proofs.Scope.Binding
import Mustache.Proofs.Storage.KeptFiles
import Mustache.Proofs.Storage.SamePrograms
import Mustache.Proofs.Storage.AtomicStoring
import Mustache.Proofs.Storage.StoredAgain
import Mustache.Proofs.CommandLine.WarmedAgain
import Mustache.Proofs.Storage.DirectoryOrder
import Mustache.Proofs.Storage.LexicalPaths
import Mustache.Proofs.Render.TemplatePaths
import Mustache.Proofs.Host.HandleSteps
import Mustache.Proofs.Host.Handles
import Mustache.Proofs.Host.Circles
import Mustache.Proofs.Scope.Circles
import Mustache.Proofs.Render.Failures
import Mustache.Proofs.Render.Unescaping
import Mustache.Proofs.Render.FaithfulEscaping
import Mustache.Proofs.Storage.WrittenFiles
import Mustache.Proofs.CommandLine.Steps
import Mustache.Proofs.CommandLine.OutputFile
