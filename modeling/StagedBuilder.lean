import StagedBuilder.Assembly.Basic
import StagedBuilder.Assembly.Collision
import StagedBuilder.Assembly.Plan
import StagedBuilder.Assembly.Validation
import StagedBuilder.Assembly.Walk
import StagedBuilder.Builder.Basic
import StagedBuilder.Builder.CallGraph
import StagedBuilder.Builder.Fingerprint
import StagedBuilder.Builder.Json
import StagedBuilder.Builder.Method
import StagedBuilder.Builder.Report
import StagedBuilder.Builder.Step
import StagedBuilder.CommandLine.Arguments
import StagedBuilder.CommandLine.Run
import StagedBuilder.Configuration.Basic
import StagedBuilder.Configuration.Json
import StagedBuilder.Configuration.Toml
import StagedBuilder.Declaration.Basic
import StagedBuilder.Declaration.Json
import StagedBuilder.Declaration.Location
import StagedBuilder.Diagnostic.Basic
import StagedBuilder.Diagnostic.Coverage
import StagedBuilder.Diagnostic.Superseded
import StagedBuilder.Dictionary
import StagedBuilder.Digest256
import StagedBuilder.Document.Basic
import StagedBuilder.Document.Json
import StagedBuilder.Document.Section
import StagedBuilder.Fault
import StagedBuilder.Files.Folder
import StagedBuilder.Files.Inputs
import StagedBuilder.Generic.Binding
import StagedBuilder.Generic.Placeholder
import StagedBuilder.Generic.Scope
import StagedBuilder.Json.Basic
import StagedBuilder.Json.Parser
import StagedBuilder.Json.Printer
import StagedBuilder.Json.Record
import StagedBuilder.Main
import StagedBuilder.Naming
import StagedBuilder.Prefix.Digest
import StagedBuilder.Prefix.Key
import StagedBuilder.Prefix.Tree
import StagedBuilder.Project.Basic
import StagedBuilder.Project.Report
import StagedBuilder.Proofs.Reachability
import StagedBuilder.Reachability
import StagedBuilder.Text.Case
import StagedBuilder.Text.Decimal
import StagedBuilder.Text.Hexadecimal
import StagedBuilder.Text.Identifier
import StagedBuilder.Text.IdentifierRanges
import StagedBuilder.Text.Numeral
import StagedBuilder.Text.Parts
import StagedBuilder.Text.UppercaseRanges
import StagedBuilder.Toml.Basic
import StagedBuilder.Toml.Lexeme
import StagedBuilder.Toml.Parser
import StagedBuilder.Type.Basic
import StagedBuilder.Type.Json
import StagedBuilder.Type.Parameter
import StagedBuilder.Type.System
import StagedBuilder.TypeExpression.Atom
import StagedBuilder.TypeExpression.Attribute
import StagedBuilder.TypeExpression.Basic
import StagedBuilder.TypeExpression.Bound
import StagedBuilder.TypeExpression.Expression
import StagedBuilder.TypeExpression.Form
import StagedBuilder.TypeExpression.Function
import StagedBuilder.TypeExpression.Grammar
import StagedBuilder.TypeExpression.Item
import StagedBuilder.TypeExpression.Lexer
import StagedBuilder.TypeExpression.Literal
import StagedBuilder.TypeExpression.Operator
import StagedBuilder.TypeExpression.Path
import StagedBuilder.TypeExpression.Pattern
import StagedBuilder.TypeExpression.Readers
import StagedBuilder.TypeExpression.Statement
import StagedBuilder.TypeExpression.Token
import StagedBuilder.Proofs.Assignability
import StagedBuilder.Proofs.CallGraph
import StagedBuilder.Proofs.CallReach
import StagedBuilder.Proofs.Collision
import StagedBuilder.Proofs.Positional
import StagedBuilder.Proofs.Renaming
import StagedBuilder.Proofs.PrefixValues
import StagedBuilder.Proofs.PrefixTree
import StagedBuilder.Proofs.PrefixVisits
import StagedBuilder.Proofs.PrefixSearch
import StagedBuilder.Proofs.PrefixMeeting
import StagedBuilder.Proofs.Scope
import StagedBuilder.Proofs.CanonicalForm
import StagedBuilder.Proofs.Plan
import StagedBuilder.Proofs.Path
import StagedBuilder.Proofs.Walk
import StagedBuilder.Proofs.Offer
import StagedBuilder.Proofs.Soundness
import StagedBuilder.Proofs.FinalNumber
import StagedBuilder.Proofs.Stock
import StagedBuilder.Proofs.Place
import StagedBuilder.Proofs.Chart
import StagedBuilder.Proofs.Assembly
import StagedBuilder.Proofs.Survey
import StagedBuilder.Proofs.Layers
import StagedBuilder.Proofs.Signatures
import StagedBuilder.Proofs.Termini
import StagedBuilder.Proofs.Endings
import StagedBuilder.Proofs.Sharing
import StagedBuilder.Proofs.Account
import StagedBuilder.Proofs.Validity
import StagedBuilder.Proofs.ConverterSorting
import StagedBuilder.Proofs.Progress
import StagedBuilder.Proofs.Merging
import StagedBuilder.Proofs.Standing
import StagedBuilder.Proofs.Scoping
import StagedBuilder.Proofs.Trail
import StagedBuilder.Proofs.StorageFields
import StagedBuilder.Proofs.ConstraintScoping
import StagedBuilder.Proofs.ChainWalk
import StagedBuilder.Proofs.Chain
import StagedBuilder.Proofs.TargetArguments
import StagedBuilder.Proofs.Binding
import StagedBuilder.Proofs.Instantiation
import StagedBuilder.Proofs.MethodScoping
import StagedBuilder.Proofs.ConverterArguments
import StagedBuilder.Proofs.Likeness
import StagedBuilder.Proofs.Parallel
import StagedBuilder.Proofs.Correspondence
import StagedBuilder.Proofs.Exclusion
import StagedBuilder.Proofs.Matching
import StagedBuilder.Proofs.NameIndependence
import StagedBuilder.Proofs.RecordReading
import StagedBuilder.Proofs.RoundTrip
import StagedBuilder.Proofs.BuilderForm
import StagedBuilder.Proofs.Candidates
import StagedBuilder.Proofs.CandidateReach
import StagedBuilder.Proofs.Supersession
import StagedBuilder.Proofs.Resolution
import StagedBuilder.Proofs.Folding
import StagedBuilder.Proofs.Ledger
import StagedBuilder.Proofs.PrefixLabels
import StagedBuilder.Proofs.PrefixGrowth
import StagedBuilder.Proofs.PrefixHistory
import StagedBuilder.Proofs.PrefixWays
import StagedBuilder.Proofs.Digests
import StagedBuilder.Proofs.Folder
import StagedBuilder.Proofs.Inputs
import StagedBuilder.Proofs.Denotation
import StagedBuilder.Proofs.Sections
import StagedBuilder.Proofs.Project
import StagedBuilder.Proofs.TypeArguments
import StagedBuilder.Proofs.Spelling
import StagedBuilder.Proofs.Scanning
import StagedBuilder.Proofs.Rereading
import StagedBuilder.Proofs.Wording
import StagedBuilder.Proofs.BoundNames
import StagedBuilder.Proofs.FolderWalk
import StagedBuilder.Proofs.DotReading
import StagedBuilder.Proofs.Drawing
