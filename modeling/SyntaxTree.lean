import SyntaxTree.Grammar.Call
import SyntaxTree.Grammar.Cause
import SyntaxTree.Grammar.Cursor
import SyntaxTree.Grammar.Error
import SyntaxTree.Grammar.Expression
import SyntaxTree.Grammar.FString
import SyntaxTree.Grammar.Literal
import SyntaxTree.Grammar.Module
import SyntaxTree.Grammar.Pattern
import SyntaxTree.Grammar.Phrase
import SyntaxTree.Grammar.Statement
import SyntaxTree.Grammar.Target
import SyntaxTree.Grammar.Text
import SyntaxTree.Number.Binary64
import SyntaxTree.Number.Decimal
import SyntaxTree.Number.Format
import SyntaxTree.Number.Reading
import SyntaxTree.Number.Rounding
import SyntaxTree.Render.Expression
import SyntaxTree.Render.Line
import SyntaxTree.Render.Pattern
import SyntaxTree.Render.Precedence
import SyntaxTree.Render.Quoted
import SyntaxTree.Render.Statement
import SyntaxTree.Report.Diagnostic
import SyntaxTree.Report.Figures
import SyntaxTree.Report.Metrics
import SyntaxTree.Report.Settings
import SyntaxTree.Text.Bytes
import SyntaxTree.Text.Position
import SyntaxTree.Text.Utf8
import SyntaxTree.Token.Basic
import SyntaxTree.Token.Kind
import SyntaxTree.Token.Layout
import SyntaxTree.Token.Lexeme
import SyntaxTree.Token.Number
import SyntaxTree.Token.Session
import SyntaxTree.Token.Text
import SyntaxTree.Tree.Basic
import SyntaxTree.Tree.Dump
import SyntaxTree.Tree.Edit
import SyntaxTree.Tree.Operator
import SyntaxTree.Tree.Outline
import SyntaxTree.Unicode.Composition
import SyntaxTree.Unicode.Decomposition
import SyntaxTree.Unicode.Identifier
import SyntaxTree.Unicode.Name
import SyntaxTree.Unicode.NameTable
import SyntaxTree.Unicode.Normal
import SyntaxTree.Proofs.Tree.Bare
import SyntaxTree.Proofs.Dump.Branch
import SyntaxTree.Proofs.Dump.Label
import SyntaxTree.Proofs.Dump.Kind
import SyntaxTree.Proofs.Dump.Clean
import SyntaxTree.Proofs.Dump.Expression
import SyntaxTree.Proofs.Dump.Pattern
import SyntaxTree.Proofs.Dump.Statement
import SyntaxTree.Proofs.Dump.Node
import SyntaxTree.Proofs.Grammar.Level
import SyntaxTree.Proofs.Grammar.Reads
import SyntaxTree.Proofs.Grammar.Climb
import SyntaxTree.Proofs.Grammar.Derives
import SyntaxTree.Proofs.Grammar.Sound
import SyntaxTree.Proofs.Grammar.Whole
import SyntaxTree.Proofs.Token.Division
import SyntaxTree.Proofs.Token.Line
import SyntaxTree.Proofs.Token.Block
import SyntaxTree.Proofs.Token.Run
import SyntaxTree.Proofs.Token.Bracketing
import SyntaxTree.Proofs.Token.Cover
import SyntaxTree.Proofs.Grammar.Columns
import SyntaxTree.Proofs.Grammar.Phrase
import SyntaxTree.Proofs.Text.Utf8
import SyntaxTree.Proofs.Render.Spelling
import SyntaxTree.Proofs.Render.Operator
import SyntaxTree.Proofs.Render.Tree
import SyntaxTree.Proofs.Grammar.Text
import SyntaxTree.Proofs.Render.Escape
import SyntaxTree.Proofs.Render.Quoted
import SyntaxTree.Proofs.Grammar.FString
import SyntaxTree.Proofs.Render.FString
import SyntaxTree.Proofs.Grammar.Separated
import SyntaxTree.Proofs.Grammar.Pattern
import SyntaxTree.Proofs.Grammar.Value
import SyntaxTree.Proofs.Grammar.Mapping
import SyntaxTree.Proofs.Render.Items
import SyntaxTree.Proofs.Tree.Rename
import SyntaxTree.Proofs.Unicode.Dotless
import SyntaxTree.Proofs.Token.Plain
import SyntaxTree.Proofs.Rename.Mirror
import SyntaxTree.Proofs.Rename.Phrase
import SyntaxTree.Proofs.Rename.Expression
import SyntaxTree.Proofs.Rename.Simple
import SyntaxTree.Proofs.Rename.Line
import SyntaxTree.Proofs.Rename.Block
import SyntaxTree.Proofs.Rename.Statement
import SyntaxTree.Proofs.Grammar.Module
import SyntaxTree.Proofs.Rename.Module
import SyntaxTree.Proofs.Render.Header
import SyntaxTree.Proofs.Grammar.Suite
import SyntaxTree.Proofs.Grammar.Match
import SyntaxTree.Proofs.Render.Pattern
import SyntaxTree.Proofs.Render.Match
import SyntaxTree.Proofs.Tree.Link
import SyntaxTree.Proofs.Text.Place
import SyntaxTree.Proofs.Token.Place
import SyntaxTree.Proofs.Token.Numeral
import SyntaxTree.Proofs.Token.Sound
import SyntaxTree.Proofs.Tree.WellFormed
import SyntaxTree.Proofs.Grammar.Piece
import SyntaxTree.Proofs.Build.Node
import SyntaxTree.Proofs.Build.Target
import SyntaxTree.Proofs.Build.Reading
import SyntaxTree.Proofs.Build.Phrase
import SyntaxTree.Proofs.Build.Text
import SyntaxTree.Proofs.Build.Expression
import SyntaxTree.Proofs.Build.Pattern
import SyntaxTree.Proofs.Build.Simple
import SyntaxTree.Proofs.Build.Statement
import SyntaxTree.Proofs.Build.Module
import SyntaxTree.Proofs.Text.LineEnd
import SyntaxTree.Proofs.Token.Frame
import SyntaxTree.Proofs.Token.LineEnd
import SyntaxTree.Proofs.Grammar.LineEnd
import SyntaxTree.Proofs.Token.Comment
import SyntaxTree.Proofs.Ending.Reading
import SyntaxTree.Proofs.Ending.Text
import SyntaxTree.Proofs.Ending.Phrase
import SyntaxTree.Proofs.Ending.Expression
import SyntaxTree.Proofs.Ending.Pattern
import SyntaxTree.Proofs.Ending.Simple
import SyntaxTree.Proofs.Ending.Statement
import SyntaxTree.Proofs.Ending.Range
import SyntaxTree.Proofs.Ending.Module
import SyntaxTree.Proofs.Ending.Attempt
import SyntaxTree.Proofs.Depth.Phrase
import SyntaxTree.Proofs.Depth.Expression
import SyntaxTree.Proofs.Token.Source
import SyntaxTree.Proofs.Grammar.Draft
import SyntaxTree.Proofs.Grammar.Concatenation
import SyntaxTree.Proofs.Grammar.FieldPlace
import SyntaxTree.Proofs.Text.Column
import SyntaxTree.Proofs.Grammar.Column
import SyntaxTree.Proofs.Grammar.Chunk
import SyntaxTree.Proofs.Grammar.Doubled
import SyntaxTree.Proofs.Grammar.Enclosed
import SyntaxTree.Proofs.Grammar.Formatted
import SyntaxTree.Proofs.Tree.Block
import SyntaxTree.Proofs.Token.Firm
import SyntaxTree.Proofs.Build.Block
import SyntaxTree.Proofs.Grammar.Parameter
import SyntaxTree.Proofs.Render.Bare
import SyntaxTree.Proofs.Number.Grammar
import SyntaxTree.Proofs.Number.Value
import SyntaxTree.Proofs.Token.Nested
import SyntaxTree.Proofs.Grammar.Statement
import SyntaxTree.Proofs.Grammar.Compound
import SyntaxTree.Proofs.Render.Lines
import SyntaxTree.Proofs.Render.Block
import SyntaxTree.Proofs.Render.Closed
import SyntaxTree.Proofs.Render.Parameter
import SyntaxTree.Proofs.Tree.Walk
import SyntaxTree.Proofs.Dump.Walk
import SyntaxTree.Proofs.Text.Splitting
import SyntaxTree.Proofs.Token.Located
import SyntaxTree.Proofs.Number.Layout
import SyntaxTree.Proofs.Render.Demand
import SyntaxTree.Proofs.Grammar.Supply
import SyntaxTree.Proofs.Grammar.Demand
import SyntaxTree.Proofs.Grammar.Paid
import SyntaxTree.Proofs.Token.Point
import SyntaxTree.Proofs.Render.Offer
import SyntaxTree.Proofs.Render.Marked
import SyntaxTree.Proofs.Render.Needed
import SyntaxTree.Proofs.Render.Argument
import SyntaxTree.Proofs.Grammar.Modes
import SyntaxTree.Proofs.Token.Session
import SyntaxTree.Proofs.Token.Name
import SyntaxTree.Proofs.Token.Extent
import SyntaxTree.Proofs.Ending.Body
import SyntaxTree.Proofs.Report.Figures
import SyntaxTree.Proofs.Report.Json
import SyntaxTree.Proofs.Report.Summary
