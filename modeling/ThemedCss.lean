import ThemedCss.CommandLine.Arguments
import ThemedCss.CommandLine.Run
import ThemedCss.Compile
import ThemedCss.Data.Calendar
import ThemedCss.Data.Field
import ThemedCss.Data.Graph
import ThemedCss.Data.Value
import ThemedCss.Dependency.Classify
import ThemedCss.Dependency.Graph
import ThemedCss.Dependency.Key
import ThemedCss.Dependency.Link
import ThemedCss.Dependency.Module
import ThemedCss.Dependency.Program
import ThemedCss.Extraction
import ThemedCss.FileTree
import ThemedCss.Main
import ThemedCss.Number.Double
import ThemedCss.Number.Shortest
import ThemedCss.Output.Basic
import ThemedCss.Output.Edit
import ThemedCss.Output.Prologue
import ThemedCss.Path
import ThemedCss.Preferences
import ThemedCss.Proofs.Compile
import ThemedCss.Proofs.Data.Fresh
import ThemedCss.Proofs.Data.Layout
import ThemedCss.Proofs.Data.Mapping
import ThemedCss.Proofs.Data.Route
import ThemedCss.Proofs.Data.Sharing
import ThemedCss.Proofs.Data.Whole
import ThemedCss.Proofs.Dependency.Alike
import ThemedCss.Proofs.Dependency.Answers
import ThemedCss.Proofs.Dependency.Classification
import ThemedCss.Proofs.Dependency.Declared
import ThemedCss.Proofs.Dependency.Graph
import ThemedCss.Proofs.Dependency.Parentheses
import ThemedCss.Proofs.Dependency.Program
import ThemedCss.Proofs.Dependency.Reads
import ThemedCss.Proofs.Dependency.Rules
import ThemedCss.Proofs.Dependency.Shadowing
import ThemedCss.Proofs.Dependency.Simulation
import ThemedCss.Proofs.Dependency.Stars
import ThemedCss.Proofs.Dependency.Termination
import ThemedCss.Proofs.Dependency.Trust
import ThemedCss.Proofs.Dependency.Walk
import ThemedCss.Proofs.Dependency.Written
import ThemedCss.Proofs.Extraction
import ThemedCss.Proofs.FileTree
import ThemedCss.Proofs.Output.Code
import ThemedCss.Proofs.Output.Edit
import ThemedCss.Proofs.Output.FixedPoint
import ThemedCss.Proofs.Output.Independence
import ThemedCss.Proofs.Output.Layout
import ThemedCss.Proofs.Output.Mapping
import ThemedCss.Proofs.Output.Moved
import ThemedCss.Proofs.Output.Overlap
import ThemedCss.Proofs.Output.Placement
import ThemedCss.Proofs.Output.Prologue
import ThemedCss.Proofs.Output.Skeleton
import ThemedCss.Proofs.Output.Template
import ThemedCss.Proofs.Output.TopLevel
import ThemedCss.Proofs.Preferences.Change
import ThemedCss.Proofs.Preferences.Kept
import ThemedCss.Proofs.Preferences.Session
import ThemedCss.Proofs.Scope.Bound
import ThemedCss.Proofs.Scope.Completeness
import ThemedCss.Proofs.Scope.Enclosed
import ThemedCss.Proofs.Scope.Occurrence
import ThemedCss.Proofs.Scope.Traversal
import ThemedCss.Proofs.Style.Alike
import ThemedCss.Proofs.Style.Grant
import ThemedCss.Proofs.Style.Layout
import ThemedCss.Proofs.Style.Parameters
import ThemedCss.Proofs.Style.Scan
import ThemedCss.Proofs.Style.Sites
import ThemedCss.Proofs.Style.Template
import ThemedCss.Proofs.Syntax.Alike
import ThemedCss.Proofs.Syntax.Enclosed
import ThemedCss.Proofs.Table
import ThemedCss.Proofs.Text.Base64
import ThemedCss.Proofs.Text.Boundary
import ThemedCss.Proofs.Text.Query
import ThemedCss.Proofs.Text.Utf8
import ThemedCss.Proofs.Theme.Accessor
import ThemedCss.Proofs.Theme.Cache
import ThemedCss.Proofs.Theme.Faults
import ThemedCss.Proofs.Theme.Reading
import ThemedCss.Proofs.Theme.Reference
import ThemedCss.Proofs.Yaml.Reader
import ThemedCss.Report.Emoji
import ThemedCss.Report.EmojiNames
import ThemedCss.Report.Grid
import ThemedCss.Report.Markup
import ThemedCss.Report.Outline
import ThemedCss.Report.Style
import ThemedCss.Report.Width
import ThemedCss.Report.Wrap
import ThemedCss.Scope.Name
import ThemedCss.Scope.Read
import ThemedCss.Settings
import ThemedCss.Style.Basic
import ThemedCss.Style.Scan
import ThemedCss.Style.Token
import ThemedCss.Syntax.Balance
import ThemedCss.Syntax.Kind
import ThemedCss.Syntax.Lexeme
import ThemedCss.Syntax.Node
import ThemedCss.Syntax.Parser
import ThemedCss.Syntax.Parser.Basic
import ThemedCss.Syntax.Parser.Binding
import ThemedCss.Syntax.Parser.Expression
import ThemedCss.Syntax.Parser.Literal
import ThemedCss.Syntax.Parser.Statement
import ThemedCss.Syntax.Parser.Types
import ThemedCss.Syntax.StatementEnd
import ThemedCss.Table
import ThemedCss.Text.Base64
import ThemedCss.Text.Basic
import ThemedCss.Text.Numeral
import ThemedCss.Text.Query
import ThemedCss.Text.Quoted
import ThemedCss.Text.Utf8
import ThemedCss.Theme.Environment
import ThemedCss.Theme.Load
import ThemedCss.Theme.Module
import ThemedCss.Workspace
import ThemedCss.Yaml.Cursor
import ThemedCss.Yaml.Lexer
import ThemedCss.Yaml.Literal
import ThemedCss.Yaml.Node
import ThemedCss.Yaml.Reader
import ThemedCss.Yaml.Scalar
import ThemedCss.Yaml.Token
import ThemedCss.Yaml.Writer
