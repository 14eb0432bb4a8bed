import TreeListing.Batch
import TreeListing.Bracket
import TreeListing.Codec
import TreeListing.CommandLine
import TreeListing.CommandLine.Parameter
import TreeListing.CommandLine.Reader
import TreeListing.CommandLine.Run
import TreeListing.CommandLine.Usage
import TreeListing.Dictionary
import TreeListing.Error
import TreeListing.FileSystem
import TreeListing.FileSystem.Disk
import TreeListing.GrammarCache
import TreeListing.Language
import TreeListing.Main
import TreeListing.Markup
import TreeListing.Position
import TreeListing.Proofs.AliasOrder
import TreeListing.Proofs.Annotation
import TreeListing.Proofs.Balance
import TreeListing.Proofs.BatchListings
import TreeListing.Proofs.CachedGrammars
import TreeListing.Proofs.Choices
import TreeListing.Proofs.Concatenation
import TreeListing.Proofs.Counters
import TreeListing.Proofs.Detection
import TreeListing.Proofs.Disk
import TreeListing.Proofs.Escaping
import TreeListing.Proofs.Fields
import TreeListing.Proofs.Html
import TreeListing.Proofs.Insertion
import TreeListing.Proofs.Lead
import TreeListing.Proofs.Levels
import TreeListing.Proofs.LineBreaks
import TreeListing.Proofs.Lines
import TreeListing.Proofs.Listed
import TreeListing.Proofs.Lookup
import TreeListing.Proofs.LowerCase
import TreeListing.Proofs.Markup
import TreeListing.Proofs.MissingTokens
import TreeListing.Proofs.Nesting
import TreeListing.Proofs.Outline
import TreeListing.Proofs.Passes
import TreeListing.Proofs.Places
import TreeListing.Proofs.QuotedRuns
import TreeListing.Proofs.Reading
import TreeListing.Proofs.Recovery
import TreeListing.Proofs.Regions
import TreeListing.Proofs.Rows
import TreeListing.Proofs.Scan
import TreeListing.Proofs.Settings
import TreeListing.Proofs.SharedCache
import TreeListing.Proofs.Spans
import TreeListing.Proofs.Spelling
import TreeListing.Proofs.StandIns
import TreeListing.Proofs.Storage
import TreeListing.Proofs.Subtree
import TreeListing.Proofs.TomlStrings
import TreeListing.Proofs.Traversal
import TreeListing.Record
import TreeListing.Record.Lead
import TreeListing.Record.Outline
import TreeListing.Render
import TreeListing.Render.Options
import TreeListing.Settings
import TreeListing.Settings.Codec
import TreeListing.Settings.Store
import TreeListing.Sexp
import TreeListing.Source
import TreeListing.Source.Fragment
import TreeListing.Source.Json
import TreeListing.Source.Json.Token
import TreeListing.Text
import TreeListing.Text.LowerCase
import TreeListing.Text.Quoted
import TreeListing.Toml.Character
import TreeListing.Toml.Quoted
import TreeListing.Toml.Reader
import TreeListing.Toml.Scalar
import TreeListing.Toml.Table
import TreeListing.Toml.Writer
import TreeListing.Tree
import TreeListing.Tree.Entry
import TreeListing.Tree.Node
import TreeListing.Value
import TreeListing.Value.Json
