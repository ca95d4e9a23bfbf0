import ToolGrammar.CommandLine.Arguments
import ToolGrammar.CommandLine.Invocation
import ToolGrammar.CommandLine.Process
import ToolGrammar.CommandLine.Run
import ToolGrammar.Compilation
import ToolGrammar.Decimal.Binary64
import ToolGrammar.Decimal.Shortest
import ToolGrammar.Documentation
import ToolGrammar.Filter.Datum
import ToolGrammar.Filter.Numeral
import ToolGrammar.Filter.Reader
import ToolGrammar.Filter.Run
import ToolGrammar.Filter.Term
import ToolGrammar.Filter.Token
import ToolGrammar.Glob.Pattern
import ToolGrammar.Glob.Search
import ToolGrammar.Grammar.Assembly
import ToolGrammar.Grammar.Emission
import ToolGrammar.Grammar.Literal
import ToolGrammar.Grammar.Primitives
import ToolGrammar.Grammar.Registry
import ToolGrammar.Grammar.Rule
import ToolGrammar.Grammar.RuleId
import ToolGrammar.Journal.Event
import ToolGrammar.Journal.Threshold
import ToolGrammar.Json.Fault
import ToolGrammar.Json.Lexeme
import ToolGrammar.Json.Path
import ToolGrammar.Json.Pointer
import ToolGrammar.Json.Position
import ToolGrammar.Json.Printer
import ToolGrammar.Json.Tree
import ToolGrammar.Json.Value
import ToolGrammar.Keyed
import ToolGrammar.Main
import ToolGrammar.Proofs.Gbnf.Derivation
import ToolGrammar.Proofs.Gbnf.Lexing
import ToolGrammar.Proofs.Gbnf.Reader
import ToolGrammar.Proofs.Gbnf.Spelling
import ToolGrammar.Proofs.Grammar.Acceptance
import ToolGrammar.Proofs.Grammar.Adequacy
import ToolGrammar.Proofs.Grammar.Agreement
import ToolGrammar.Proofs.Grammar.Bodies
import ToolGrammar.Proofs.Grammar.Completeness
import ToolGrammar.Proofs.Grammar.Names
import ToolGrammar.Proofs.Grammar.Nodes
import ToolGrammar.Proofs.Grammar.Reading
import ToolGrammar.Proofs.Grammar.Resolution
import ToolGrammar.Proofs.Grammar.Soundness
import ToolGrammar.Proofs.Grammar.Texts
import ToolGrammar.Proofs.Grammar.Tokens
import ToolGrammar.Proofs.Json.Denotation
import ToolGrammar.Proofs.Json.Strings
import ToolGrammar.Proofs.Schema.Conformance
import ToolGrammar.Proofs.Schema.Shape
import ToolGrammar.Proofs.Schema.Valid
import ToolGrammar.Proofs.Text.Languages
import ToolGrammar.Schema.Error
import ToolGrammar.Schema.FromText
import ToolGrammar.Schema.FromValue
import ToolGrammar.Schema.Parameter
import ToolGrammar.Schema.Record
import ToolGrammar.Schema.Refusal
import ToolGrammar.Script
import ToolGrammar.Snapshot.Check
import ToolGrammar.Snapshot.Difference
import ToolGrammar.Storage.AccessError
import ToolGrammar.Storage.Document
import ToolGrammar.Storage.FileSystem
import ToolGrammar.Storage.PathText
import ToolGrammar.Text.Alphanumeric
import ToolGrammar.Text.Blank
import ToolGrammar.Text.Escaped
import ToolGrammar.Text.Letter
import ToolGrammar.Text.Lowercase
import ToolGrammar.Text.Pieces
import ToolGrammar.Text.Ranges
import ToolGrammar.Proofs.Grammar.Outcome
import ToolGrammar.Proofs.Grammar.Signatures
import ToolGrammar.Proofs.Grammar.References
import ToolGrammar.Proofs.Grammar.Closure
import ToolGrammar.Proofs.Grammar.Separation
import ToolGrammar.Proofs.Json.Values
import ToolGrammar.Proofs.Schema.Spelling
import ToolGrammar.Proofs.Schema.Success
import ToolGrammar.Proofs.Schema.Records
import ToolGrammar.Proofs.Schema.Checks
import ToolGrammar.Proofs.Schema.Completion
import ToolGrammar.Proofs.Schema.Places
import ToolGrammar.Proofs.Schema.Decoding
import ToolGrammar.Proofs.Json.Trees
import ToolGrammar.Proofs.Schema.Routes
import ToolGrammar.Proofs.Schema.Agreement
import ToolGrammar.Proofs.Schema.Construction
import ToolGrammar.Proofs.Storage.Spelling
import ToolGrammar.Proofs.Storage.Access
import ToolGrammar.Proofs.Storage.Directories
import ToolGrammar.Proofs.Storage.Sharing
import ToolGrammar.Proofs.Storage.Entries
import ToolGrammar.Proofs.Script.Tracking
import ToolGrammar.Proofs.CommandLine.Inputs
import ToolGrammar.Proofs.Script.Interleaving
import ToolGrammar.Proofs.CommandLine.Batch
import ToolGrammar.Proofs.Grammar.Independence
import ToolGrammar.Proofs.Grammar.Words
import ToolGrammar.Proofs.Grammar.Lines
import ToolGrammar.Proofs.Grammar.Outline
import ToolGrammar.Proofs.Documentation.Agreement
import ToolGrammar.Proofs.Script.Silence
import ToolGrammar.Proofs.Storage.Persistence
import ToolGrammar.Proofs.Script.Reliance
import ToolGrammar.Proofs.CommandLine.Stages
import ToolGrammar.Proofs.CommandLine.Fates
import ToolGrammar.Proofs.CommandLine.Traces
import ToolGrammar.Proofs.Grammar.FixedPoint
import ToolGrammar.Proofs.Grammar.Precisions
import ToolGrammar.Proofs.Json.Scanning
import ToolGrammar.Proofs.Grammar.Literals
import ToolGrammar.Proofs.Grammar.Preorder
import ToolGrammar.Proofs.Documentation.Listing
import ToolGrammar.Proofs.Documentation.Layout
import ToolGrammar.Proofs.CommandLine.Documents
import ToolGrammar.Proofs.Json.Nodes
import ToolGrammar.Proofs.Schema.Failure
import ToolGrammar.Proofs.Schema.Locality
import ToolGrammar.Proofs.Schema.Defects
import ToolGrammar.Proofs.Schema.Equality
import ToolGrammar.Proofs.Schema.Unnoticed
import ToolGrammar.Proofs.Schema.Overwriting
import ToolGrammar.Proofs.Storage.Replacing
import ToolGrammar.Proofs.Snapshot.Runs
import ToolGrammar.Proofs.Snapshot.Golden
import ToolGrammar.Proofs.Grammar.Paths
import ToolGrammar.Proofs.Grammar.Registering
import ToolGrammar.Proofs.Snapshot.Comparison
