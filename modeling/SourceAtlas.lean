import SourceAtlas.Batch
import SourceAtlas.CommandLine
import SourceAtlas.CommandLine.Arguments
import SourceAtlas.CompilerOptions
import SourceAtlas.Configuration
import SourceAtlas.Context
import SourceAtlas.Decimal.Binary64
import SourceAtlas.Decimal.Shortest
import SourceAtlas.Environment
import SourceAtlas.Environment.Assignments
import SourceAtlas.Erasure
import SourceAtlas.Extraction
import SourceAtlas.Failure
import SourceAtlas.FileTree
import SourceAtlas.Grammar
import SourceAtlas.Index
import SourceAtlas.Indexing
import SourceAtlas.Json.Basic
import SourceAtlas.Json.Reader
import SourceAtlas.Json.Writer
import SourceAtlas.Outline
import SourceAtlas.Outline.Json
import SourceAtlas.Outline.OfTree
import SourceAtlas.Path
import SourceAtlas.Prompt
import SourceAtlas.Provider
import SourceAtlas.Provider.Address
import SourceAtlas.Reference
import SourceAtlas.Refinement
import SourceAtlas.Repository
import SourceAtlas.Resolution
import SourceAtlas.Service
import SourceAtlas.Store
import SourceAtlas.Summary
import SourceAtlas.Summary.OfText
import SourceAtlas.Summary.Schema
import SourceAtlas.Table
import SourceAtlas.Text.Basic
import SourceAtlas.Text.Blank
import SourceAtlas.Text.Integer
import SourceAtlas.Text.Printable
import SourceAtlas.Text.Quoted
import SourceAtlas.Text.Tidy
import SourceAtlas.Text.Utf8
import SourceAtlas.Tier
import SourceAtlas.Tree
import SourceAtlas.TypeScript.Grammar
import SourceAtlas.TypeScript.Lexeme
import SourceAtlas.TypeScript.Parse
import SourceAtlas.Url
import SourceAtlas.Validation
import SourceAtlas.Main
import SourceAtlas.Proofs.Batch.Loop
import SourceAtlas.Proofs.Protocol
import SourceAtlas.Proofs.Batch.Progress
import SourceAtlas.Proofs.Batch.AtMostOnce
import SourceAtlas.Proofs.Decimal.Rounding
import SourceAtlas.Proofs.Decimal.Shortest
import SourceAtlas.Proofs.Json.Numbers
import SourceAtlas.Proofs.Json.Strings
import SourceAtlas.Proofs.Json.Grammar
import SourceAtlas.Proofs.Json.Reread
import SourceAtlas.Proofs.Json.Plain
import SourceAtlas.Proofs.Json.Tokens
import SourceAtlas.Proofs.Json.Phrases
import SourceAtlas.Proofs.Json.Layouts
import SourceAtlas.Proofs.Index.Reread
import SourceAtlas.Proofs.FileTree
import SourceAtlas.Proofs.Path
import SourceAtlas.Proofs.Index.Written
import SourceAtlas.Proofs.Store
import SourceAtlas.Proofs.Batch.Resume
import SourceAtlas.Proofs.Breakdowns
import SourceAtlas.Proofs.RoundTrip
import SourceAtlas.Proofs.Places
import SourceAtlas.Proofs.Store.Changes
import SourceAtlas.Proofs.Store.History
import SourceAtlas.Proofs.Store.Frames
import SourceAtlas.Proofs.Batch.Independence
import SourceAtlas.Proofs.Affixes
import SourceAtlas.Proofs.Path.Normal
import SourceAtlas.Proofs.Indexing.Records
import SourceAtlas.Proofs.Path.Names
import SourceAtlas.Proofs.Scalars
import SourceAtlas.Proofs.Indexing.OneFile
import SourceAtlas.Proofs.Indexing.Isolation
import SourceAtlas.Proofs.Indexing.Pending
import SourceAtlas.Proofs.Path.Within
import SourceAtlas.Proofs.Resolution
import SourceAtlas.Proofs.Indexing.Confinement
import SourceAtlas.Proofs.Indexing.OwnArtifacts
import SourceAtlas.Proofs.Erasure
import SourceAtlas.Proofs.Candidates
import SourceAtlas.Proofs.Comments.Scan
import SourceAtlas.Proofs.Comments.Strip
import SourceAtlas.Proofs.FirstObject
import SourceAtlas.Proofs.Store.Atomic
import SourceAtlas.LinkedTree
import SourceAtlas.Proofs.LinkedTree
import SourceAtlas.Proofs.Store.Links
import SourceAtlas.Proofs.CompilerOptions
import SourceAtlas.Proofs.CompilerOptions.Faults
import SourceAtlas.Proofs.Batch.Durable
import SourceAtlas.Proofs.Json.Values
import SourceAtlas.Proofs.Validation
import SourceAtlas.Proofs.Summary.Records
import SourceAtlas.Proofs.Summary.Stored
import SourceAtlas.Proofs.Configuration
import SourceAtlas.Proofs.Index.Shapes
import SourceAtlas.Proofs.Loading
import SourceAtlas.Proofs.Outline.Commented
import SourceAtlas.Proofs.Outline.Comments
import SourceAtlas.Proofs.Canonical
import SourceAtlas.Proofs.Reference.Scan
import SourceAtlas.Proofs.Reference.Written
import SourceAtlas.Proofs.Routing
import SourceAtlas.Proofs.Listing
import SourceAtlas.Proofs.Answers
import SourceAtlas.Proofs.Indexing.Repeated
import SourceAtlas.Proofs.Path.Directory
import SourceAtlas.Proofs.CommandLine
