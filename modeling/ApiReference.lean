import ApiReference.Catalog.Basic
import ApiReference.Catalog.Builtin
import ApiReference.CommandLine.Arguments
import ApiReference.CommandLine.Invocation
import ApiReference.CommandLine.Run
import ApiReference.Declaration.Basic
import ApiReference.Declaration.Build
import ApiReference.Declaration.Cache
import ApiReference.Declaration.Clause
import ApiReference.Declaration.Collect
import ApiReference.Declaration.Documentation
import ApiReference.Declaration.Reader
import ApiReference.Declaration.Search
import ApiReference.Declaration.Sharing
import ApiReference.Declaration.Signature
import ApiReference.Failure
import ApiReference.Json.Basic
import ApiReference.Json.Printer
import ApiReference.Json.Reader
import ApiReference.Main
import ApiReference.Number.Binary64
import ApiReference.Number.Literal
import ApiReference.Number.Rounding
import ApiReference.Package.BarrelPaths
import ApiReference.Package.Example
import ApiReference.Package.Manifest
import ApiReference.Package.Metadata
import ApiReference.Package.Name
import ApiReference.Package.Version
import ApiReference.Proofs.Catalog.Keys
import ApiReference.Proofs.Catalog.Overriding
import ApiReference.Proofs.Declaration.Alike
import ApiReference.Proofs.Declaration.BlockComments
import ApiReference.Proofs.Declaration.Clauses
import ApiReference.Proofs.Declaration.CommentOwners
import ApiReference.Proofs.Declaration.Concepts
import ApiReference.Proofs.Declaration.Eviction
import ApiReference.Proofs.Declaration.Filling
import ApiReference.Proofs.Declaration.LeadingComments
import ApiReference.Proofs.Declaration.ParameterTags
import ApiReference.Proofs.Declaration.Ranking
import ApiReference.Proofs.Declaration.References
import ApiReference.Proofs.Declaration.Rereading
import ApiReference.Proofs.Declaration.Searching
import ApiReference.Proofs.Declaration.Sections
import ApiReference.Proofs.Declaration.Sharing
import ApiReference.Proofs.Declaration.Signatures
import ApiReference.Proofs.Declaration.TagTexts
import ApiReference.Proofs.Declaration.TypeNames
import ApiReference.Proofs.Declaration.TypeParameters
import ApiReference.Proofs.Declaration.Walking
import ApiReference.Proofs.Declaration.Wrappers
import ApiReference.Proofs.Markdown.Examples
import ApiReference.Proofs.Markdown.Fences
import ApiReference.Proofs.Markdown.Grammar
import ApiReference.Proofs.Markdown.Lines
import ApiReference.Proofs.Number.Literal
import ApiReference.Proofs.Number.Rounding
import ApiReference.Proofs.Package.Manifest
import ApiReference.Proofs.Package.Resolution
import ApiReference.Proofs.Query.ConceptSources
import ApiReference.Proofs.Query.ConceptVersions
import ApiReference.Proofs.Query.Detection
import ApiReference.Proofs.Query.Evidence
import ApiReference.Proofs.Query.Published
import ApiReference.Proofs.Query.Punctuation
import ApiReference.Proofs.Query.Tokens
import ApiReference.Proofs.Query.Version
import ApiReference.Proofs.Query.VersionTokens
import ApiReference.Proofs.Rendering.Blocks
import ApiReference.Proofs.Rendering.Budget
import ApiReference.Proofs.Rendering.Reduction
import ApiReference.Proofs.Rendering.Writing
import ApiReference.Proofs.Service.Absence
import ApiReference.Proofs.Service.Coherence
import ApiReference.Proofs.Service.Conversation
import ApiReference.Proofs.Service.Growth
import ApiReference.Proofs.Service.Isolation
import ApiReference.Proofs.Service.Merging
import ApiReference.Proofs.Service.Naming
import ApiReference.Proofs.Service.Order
import ApiReference.Proofs.Service.Progress
import ApiReference.Proofs.Service.Provenance
import ApiReference.Proofs.Service.Reading
import ApiReference.Proofs.Service.Reporting
import ApiReference.Proofs.Service.SideBySide
import ApiReference.Proofs.Settings.Environment
import ApiReference.Proofs.Settings.Files
import ApiReference.Proofs.Settings.Leaves
import ApiReference.Proofs.Settings.Merging
import ApiReference.Proofs.Settings.Precedence
import ApiReference.Proofs.Settings.RoundTrip
import ApiReference.Proofs.Syntax.Address
import ApiReference.Proofs.Syntax.Constructs
import ApiReference.Proofs.Syntax.Copy
import ApiReference.Proofs.Syntax.Gaps
import ApiReference.Proofs.Syntax.Lexeme.Literal
import ApiReference.Proofs.Syntax.Lexeme.Name
import ApiReference.Proofs.Syntax.Lexeme.Number
import ApiReference.Proofs.Syntax.Lexeme.Scan
import ApiReference.Proofs.Syntax.Lexeme.Tight
import ApiReference.Proofs.Syntax.Nesting
import ApiReference.Proofs.Syntax.Placement
import ApiReference.Proofs.Syntax.Reflow
import ApiReference.Proofs.Syntax.Rereading
import ApiReference.Proofs.Text.BlankLines
import ApiReference.Proofs.Text.Classes
import ApiReference.Proofs.Text.EditDistance
import ApiReference.Proofs.Text.Following
import ApiReference.Proofs.Text.LowerForms
import ApiReference.Proofs.Text.Lowercase
import ApiReference.Proofs.Text.Parts
import ApiReference.Proofs.Text.Pattern
import ApiReference.Proofs.Text.Preference
import ApiReference.Proofs.Text.Spacing
import ApiReference.Proofs.Text.Stripping
import ApiReference.Proofs.Text.Trimming
import ApiReference.Proofs.Text.Words
import ApiReference.Proofs.Toml.Faithful
import ApiReference.Proofs.Toml.Lines
import ApiReference.Proofs.Toml.Range
import ApiReference.Proofs.Toml.Reading
import ApiReference.Proofs.Toml.Strings
import ApiReference.Proofs.Toml.Tables
import ApiReference.Proofs.Toml.Values
import ApiReference.Proofs.Web.Keeping
import ApiReference.Query.Basic
import ApiReference.Query.Detection
import ApiReference.Query.Parse
import ApiReference.Query.Token
import ApiReference.Query.Version
import ApiReference.Rendering.Context
import ApiReference.Rendering.Page
import ApiReference.Rendering.Search
import ApiReference.Service.Context
import ApiReference.Service.Document
import ApiReference.Service.Request
import ApiReference.Service.Response
import ApiReference.Service.Search
import ApiReference.Service.Session
import ApiReference.Service.Source
import ApiReference.Service.World
import ApiReference.Settings.Basic
import ApiReference.Settings.Document
import ApiReference.Settings.Layers
import ApiReference.Syntax.Focus
import ApiReference.Syntax.Grammar.Construct
import ApiReference.Syntax.Grammar.Expression
import ApiReference.Syntax.Grammar.Statement
import ApiReference.Syntax.Grammar.Type
import ApiReference.Syntax.Lexeme
import ApiReference.Syntax.Position
import ApiReference.Syntax.Rule
import ApiReference.Syntax.Source
import ApiReference.Syntax.Tree
import ApiReference.Text.Alphabetic
import ApiReference.Text.Basic
import ApiReference.Text.EditDistance
import ApiReference.Text.LetterCase
import ApiReference.Text.Lowercase
import ApiReference.Text.Mark
import ApiReference.Text.Numeral
import ApiReference.Text.Pattern
import ApiReference.Text.Ranges
import ApiReference.Text.WordClass
import ApiReference.Toml.Basic
import ApiReference.Toml.Datetime
import ApiReference.Toml.Lexical
import ApiReference.Toml.Printer
import ApiReference.Toml.Reader
import ApiReference.Toml.Tree
import ApiReference.ToolServer.Refusal
import ApiReference.ToolServer.Reply
import ApiReference.ToolServer.Tool
import ApiReference.Web.Address
import ApiReference.Web.Client
import ApiReference.Web.Sources
import ApiReference.Web.Status
