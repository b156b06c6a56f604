import NestedSite.Digest.Sha256
import NestedSite.Fault
import NestedSite.Format.Percent
import NestedSite.Format.Spec
import NestedSite.Main
import NestedSite.Method.Arguments
import NestedSite.Method.Attribute
import NestedSite.Method.Call
import NestedSite.Method.Collection
import NestedSite.Method.Helper
import NestedSite.Method.Number
import NestedSite.Method.Record
import NestedSite.Method.Text
import NestedSite.Number.Binary
import NestedSite.Number.Decimal
import NestedSite.Number.Layout
import NestedSite.Number.Operation
import NestedSite.Number.Power
import NestedSite.Number.Reading
import NestedSite.Number.Text
import NestedSite.Path
import NestedSite.Pattern.Basic
import NestedSite.Pattern.Glob
import NestedSite.Pattern.Match
import NestedSite.Pattern.Parse
import NestedSite.Pattern.Replacement
import NestedSite.Proofs.Ancestors
import NestedSite.Proofs.Directory
import NestedSite.Proofs.Disk.Change
import NestedSite.Proofs.Disk.Following
import NestedSite.Proofs.Disk.Making
import NestedSite.Proofs.Method.Call
import NestedSite.Proofs.Method.Container
import NestedSite.Proofs.Method.Record
import NestedSite.Proofs.Method.Scalar
import NestedSite.Proofs.Path
import NestedSite.Proofs.Relative
import NestedSite.Proofs.Relocation.Beside
import NestedSite.Proofs.Relocation.Call
import NestedSite.Proofs.Relocation.Command
import NestedSite.Proofs.Relocation.Container
import NestedSite.Proofs.Relocation.Copy
import NestedSite.Proofs.Relocation.Engine
import NestedSite.Proofs.Relocation.Format
import NestedSite.Proofs.Relocation.Growth
import NestedSite.Proofs.Relocation.Iteration
import NestedSite.Proofs.Relocation.Keeping
import NestedSite.Proofs.Relocation.Operators
import NestedSite.Proofs.Relocation.Record
import NestedSite.Proofs.Relocation.Registration
import NestedSite.Proofs.Relocation.Run
import NestedSite.Proofs.Relocation.Scalar
import NestedSite.Proofs.Relocation.Site
import NestedSite.Proofs.Relocation.Store
import NestedSite.Proofs.Relocation.Swapping
import NestedSite.Proofs.Relocation.Template
import NestedSite.Proofs.Relocation.Value
import NestedSite.Proofs.Site.Agreement
import NestedSite.Proofs.Site.Branches
import NestedSite.Proofs.Site.Content
import NestedSite.Proofs.Site.Context
import NestedSite.Proofs.Site.Defaults
import NestedSite.Proofs.Site.Documents
import NestedSite.Proofs.Site.Echoing
import NestedSite.Proofs.Site.Engine
import NestedSite.Proofs.Site.Extension
import NestedSite.Proofs.Site.Including
import NestedSite.Proofs.Site.Keyed
import NestedSite.Proofs.Site.Layering
import NestedSite.Proofs.Site.Listing
import NestedSite.Proofs.Site.Loaded
import NestedSite.Proofs.Site.Loading
import NestedSite.Proofs.Site.Locality
import NestedSite.Proofs.Site.Lookup
import NestedSite.Proofs.Site.Malformed
import NestedSite.Proofs.Site.Merging
import NestedSite.Proofs.Site.Metadata
import NestedSite.Proofs.Site.Naming
import NestedSite.Proofs.Site.Notes
import NestedSite.Proofs.Site.Observers
import NestedSite.Proofs.Site.Opening
import NestedSite.Proofs.Site.OutputPath
import NestedSite.Proofs.Site.Overwriting
import NestedSite.Proofs.Site.Page
import NestedSite.Proofs.Site.Pass
import NestedSite.Proofs.Site.Publishing
import NestedSite.Proofs.Site.Registered
import NestedSite.Proofs.Site.Registry
import NestedSite.Proofs.Site.Rendering
import NestedSite.Proofs.Site.Sandbox
import NestedSite.Proofs.Site.Spelling
import NestedSite.Proofs.Site.Subscriptions
import NestedSite.Proofs.Site.Textual
import NestedSite.Proofs.Site.Titles
import NestedSite.Proofs.Site.Trace
import NestedSite.Proofs.Site.Unechoed
import NestedSite.Proofs.Site.Wrapping
import NestedSite.Proofs.Site.Writing
import NestedSite.Proofs.Store.Concur
import NestedSite.Proofs.Store.Confined
import NestedSite.Proofs.Store.Ensures
import NestedSite.Proofs.Store.Entries
import NestedSite.Proofs.Store.Iteration
import NestedSite.Proofs.Store.Keys
import NestedSite.Proofs.Store.Operators
import NestedSite.Proofs.Store.Paths
import NestedSite.Proofs.Store.Places
import NestedSite.Proofs.Store.Reach
import NestedSite.Proofs.Store.Region
import NestedSite.Proofs.Store.Sameness
import NestedSite.Proofs.Store.WellFormed
import NestedSite.Proofs.Template.Binding
import NestedSite.Proofs.Template.Bracket
import NestedSite.Proofs.Template.CallFree
import NestedSite.Proofs.Template.Calm
import NestedSite.Proofs.Template.Check
import NestedSite.Proofs.Template.Clause
import NestedSite.Proofs.Template.Conduct
import NestedSite.Proofs.Template.Descent
import NestedSite.Proofs.Template.Dollar
import NestedSite.Proofs.Template.Elif
import NestedSite.Proofs.Template.Evaluate
import NestedSite.Proofs.Template.Frame
import NestedSite.Proofs.Template.Header
import NestedSite.Proofs.Template.Identifier
import NestedSite.Proofs.Template.Keyed
import NestedSite.Proofs.Template.Lexical
import NestedSite.Proofs.Template.Lexing
import NestedSite.Proofs.Template.Machine
import NestedSite.Proofs.Template.Mention
import NestedSite.Proofs.Template.Nesting
import NestedSite.Proofs.Template.Purity
import NestedSite.Proofs.Template.Quoting
import NestedSite.Proofs.Template.Scan
import NestedSite.Proofs.Template.Spelling
import NestedSite.Proofs.Template.Word
import NestedSite.Proofs.Ways
import NestedSite.Proofs.Within
import NestedSite.Proofs.Yaml.Making
import NestedSite.Proofs.Yaml.Reading
import NestedSite.Proofs.Yaml.Scalar
import NestedSite.Proofs.Yaml.Scanning
import NestedSite.Site.Argument
import NestedSite.Site.Builder
import NestedSite.Site.Command
import NestedSite.Site.Config
import NestedSite.Site.Disk
import NestedSite.Site.Document
import NestedSite.Site.Echo
import NestedSite.Site.Engine
import NestedSite.Site.Event
import NestedSite.Site.Layer
import NestedSite.Site.Legend
import NestedSite.Site.Metadata
import NestedSite.Site.Rename
import NestedSite.Site.Source
import NestedSite.Template.Block
import NestedSite.Template.Check
import NestedSite.Template.Dollar
import NestedSite.Template.Evaluate
import NestedSite.Template.Expr
import NestedSite.Template.Grammar
import NestedSite.Template.Grammar.Basic
import NestedSite.Template.Grammar.Expression
import NestedSite.Template.Grammar.Field
import NestedSite.Template.Grammar.Pattern
import NestedSite.Template.Grammar.Statement
import NestedSite.Template.Instruction
import NestedSite.Template.Render
import NestedSite.Template.StringLiteral
import NestedSite.Template.Token
import NestedSite.Text.Base64
import NestedSite.Text.Blank
import NestedSite.Text.Case
import NestedSite.Text.CharSet
import NestedSite.Text.Code
import NestedSite.Text.Coding
import NestedSite.Text.Compatibility
import NestedSite.Text.Identifier
import NestedSite.Text.Json
import NestedSite.Text.Letter
import NestedSite.Text.LineEnd
import NestedSite.Text.Mapping
import NestedSite.Text.Printable
import NestedSite.Text.Quoted
import NestedSite.Text.Search
import NestedSite.Value.Arithmetic
import NestedSite.Value.Basic
import NestedSite.Value.Date
import NestedSite.Value.Equality
import NestedSite.Value.Iteration
import NestedSite.Value.Text
import NestedSite.Yaml.Layout
import NestedSite.Yaml.Load
import NestedSite.Yaml.Node
import NestedSite.Yaml.Scalar
import NestedSite.Yaml.ScalarText
import NestedSite.Yaml.Tag
import NestedSite.Yaml.Token
