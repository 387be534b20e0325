import Deadwood.Cli.Command
import Deadwood.Cli.Options
import Deadwood.Code.Binding
import Deadwood.Code.Build
import Deadwood.Code.Call
import Deadwood.Code.Checked
import Deadwood.Code.Declaration
import Deadwood.Code.Extraction
import Deadwood.Code.Hierarchy
import Deadwood.Code.Index
import Deadwood.Code.Model
import Deadwood.Code.Resolution
import Deadwood.Code.Scope
import Deadwood.Code.Unit
import Deadwood.Error
import Deadwood.Files.Ignore
import Deadwood.Files.Tree
import Deadwood.Files.Utf8
import Deadwood.Files.Walk
import Deadwood.Java.Grammar
import Deadwood.Java.Grammar.Declarations
import Deadwood.Java.Grammar.Expressions
import Deadwood.Java.Grammar.Rule
import Deadwood.Java.Grammar.Statements
import Deadwood.Java.Grammar.Symbol
import Deadwood.Java.Grammar.Types
import Deadwood.Java.Token
import Deadwood.Java.Token.Lexer
import Deadwood.Java.Token.Number
import Deadwood.Java.Tree
import Deadwood.Java.TypeName
import Deadwood.Main
import Deadwood.Path
import Deadwood.Report.Finding
import Deadwood.Report.Json
import Deadwood.Report.Style
import Deadwood.Report.Terminal
import Deadwood.Scan.Batch
import Deadwood.Scan.Run
import Deadwood.Scan.Unused
import Deadwood.Settings
import Deadwood.Settings.Glob
import Deadwood.Settings.Load
import Deadwood.Settings.Reader
import Deadwood.Settings.Toml.Reader
import Deadwood.Settings.Toml.Value
import Deadwood.Settings.Yaml.Cursor
import Deadwood.Settings.Yaml.Node
import Deadwood.Settings.Yaml.Reader
import Deadwood.Settings.Yaml.Scalar
import Deadwood.Settings.Yaml.Token
import Deadwood.Sorted
import Deadwood.Text.Alphabetic
import Deadwood.Text.Blank
import Deadwood.Text.Digit
import Deadwood.Text.Dotted
import Deadwood.Text.Identifier
import Deadwood.Text.Mark
import Deadwood.Text.Number
import Deadwood.Text.Range
import Deadwood.Text.Slice
import Deadwood.Text.Uppercase
import Deadwood.Text.Word
import Deadwood.Usage.ClassUse
import Deadwood.Usage.DeclaredName
import Deadwood.Usage.Exclusion
import Deadwood.Usage.Finding
import Deadwood.Usage.Implementers
import Deadwood.Usage.MethodUse
import Deadwood.Usage.Ranking
import Deadwood.Usage.Shape
import Deadwood.Usage.Signature
import Deadwood.Usage.TextUse
import Deadwood.Usage.UsedSet
import Deadwood.Proofs.Code.Reached
import Deadwood.Proofs.Code.Arena
import Deadwood.Proofs.Scan.Accounting
import Deadwood.Proofs.Code.Naming
import Deadwood.Proofs.Usage.Dispatch
import Deadwood.Proofs.Scan.MethodScan
import Deadwood.Proofs.Code.Levels
import Deadwood.Proofs.Code.Nesting
import Deadwood.Proofs.Code.Embedding
import Deadwood.Proofs.Code.Unrelated
import Deadwood.Proofs.Usage.ClassMentions
import Deadwood.Proofs.Code.FileOrder
import Deadwood.Proofs.Scan.FindingOrder
import Deadwood.Proofs.Scan.ClassScan
import Deadwood.Proofs.Code.Places
import Deadwood.Proofs.Code.Growth
import Deadwood.Proofs.Code.Walk
import Deadwood.Proofs.Code.Extracted
import Deadwood.Proofs.Code.Visits
import Deadwood.Proofs.Usage.CalledTypes
import Deadwood.Proofs.Usage.Shapes
import Deadwood.Proofs.Usage.TextVerdict
import Deadwood.Proofs.Scan.Completion
import Deadwood.Proofs.Scan.TextScan
import Deadwood.Proofs.Scan.Reports
import Deadwood.Proofs.Usage.Tables
import Deadwood.Proofs.Scan.Additions
import Deadwood.Proofs.Code.Distance
import Deadwood.Proofs.Code.Ancestors
import Deadwood.Proofs.Report.Grouping
import Deadwood.Proofs.Scan.Division
import Deadwood.Proofs.Report.Documents
import Deadwood.Proofs.Code.Decided
import Deadwood.Proofs.Code.StrictNames
import Deadwood.Proofs.Code.Retry
import Deadwood.Proofs.Scan.Degradation
import Deadwood.Proofs.Scan.Arrival
import Deadwood.Proofs.Scan.Ties
import Deadwood.Proofs.Usage.Implementers
import Deadwood.Proofs.Usage.Resolved
import Deadwood.Proofs.Scan.Ranked
import Deadwood.Proofs.Usage.Templates
import Deadwood.Proofs.Usage.TypeArguments
import Deadwood.Proofs.Settings.Directories
import Deadwood.Proofs.Code.Discipline
import Deadwood.Proofs.Usage.FirstDeclaration
import Deadwood.Proofs.Text.Slices
import Deadwood.Proofs.Usage.Words
import Deadwood.Proofs.Java.Spellings
import Deadwood.Proofs.Usage.Respelled
