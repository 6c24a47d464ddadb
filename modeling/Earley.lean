import Earley.Chart.Basic
import Earley.Chart.Closure
import Earley.Chart.Column
import Earley.Chart.Item
import Earley.Chart.Register
import Earley.Chart.Trail
import Earley.Grammar.Basic
import Earley.Grammar.Rule
import Earley.Grammar.Symbol
import Earley.Lexer.Basic
import Earley.Lexer.Characters
import Earley.Lexer.Excerpt
import Earley.Lexer.Lexeme
import Earley.Lexer.Prepared
import Earley.Lexer.Text
import Earley.Lexer.Words
import Earley.Parser.Basic
import Earley.Parser.Error
import Earley.Parser.Feed
import Earley.Parser.History
import Earley.Pattern.Basic
import Earley.Pattern.CharClass
import Earley.Pattern.CharSet
import Earley.Pattern.Glyph
import Earley.Pattern.Piece
import Earley.Pattern.Reader
import Earley.Pattern.Regex
import Earley.Proofs.Chart.Charted
import Earley.Proofs.Chart.Closing
import Earley.Proofs.Chart.Reading
import Earley.Proofs.Chart.Stem
import Earley.Proofs.Chart.Termination
import Earley.Proofs.Chart.Trace
import Earley.Proofs.Chart.Viability
import Earley.Proofs.Grammar.Language
import Earley.Proofs.Grammar.Tree
import Earley.Proofs.Parser.Consumption
import Earley.Proofs.Parser.Recognition
import Earley.Proofs.Parser.Results
import Earley.Reducer.Arithmetic
import Earley.Reducer.Basic
import Earley.Reducer.Guard
import Earley.Report.Basic
import Earley.Report.Runs
import Earley.Text.Alphabetic
import Earley.Text.Blank
import Earley.Text.Bracket
import Earley.Text.CaseIgnorable
import Earley.Text.CaseRun
import Earley.Text.Cased
import Earley.Text.CodePoints
import Earley.Text.Decimal
import Earley.Text.Extending
import Earley.Text.Folding
import Earley.Text.Lines
import Earley.Text.Lowercase
import Earley.Text.Numeric
import Earley.Text.Position
import Earley.Text.Printable
import Earley.Text.Quoted
import Earley.Token.Basic
import Earley.Token.Tests
import Earley.Value.Basic
import Earley.Value.Printer
import Earley.Proofs.Grammar.Cycles
import Earley.Proofs.Parser.Steps
import Earley.Proofs.Parser.Run
import Earley.Proofs.Chart.Inputs
import Earley.Proofs.Chart.LaterColumns
import Earley.Proofs.Lexer.Characters
import Earley.Proofs.Parser.Session
import Earley.Proofs.Parser.Chunks
import Earley.Proofs.Parser.Rewinding
import Earley.Proofs.Parser.Table
import Earley.Proofs.Parser.History
import Earley.Proofs.Parser.Retention
import Earley.Proofs.Parser.Finishing
import Earley.Proofs.Parser.Recovery
import Earley.Proofs.Parser.Slots
import Earley.Proofs.Parser.Abreast
import Earley.Proofs.Parser.Dialogue
import Earley.Proofs.Parser.Branches
import Earley.Proofs.Chart.Visiting
import Earley.Proofs.Chart.Orderly
import Earley.Proofs.Parser.Bookmarks
import Earley.Proofs.Chart.Trail
import Earley.Proofs.Parser.Columns
import Earley.Proofs.Parser.Expectations
import Earley.Proofs.Grammar.Rendering
import Earley.Proofs.Parser.Rendering
import Earley.Proofs.Chart.Reach
import Earley.Proofs.Parser.Reach
import Earley.Proofs.Lexer.Scanner
import Earley.Proofs.Text.Position
import Earley.Proofs.Lexer.Places
import Earley.Proofs.Lexer.Classes
import Earley.Proofs.Lexer.Quotations
import Earley.Proofs.Lexer.Quoting
import Earley.Proofs.Lexer.Resumption
import Earley.Proofs.Lexer.Printing
import Earley.Proofs.Lexer.Counting
import Earley.Proofs.Text.Lines
import Earley.Proofs.Lexer.Excerpts
import Earley.Proofs.Report.Wording
import Earley.Proofs.Report.Collapsing
import Earley.Proofs.Chart.Record
import Earley.Proofs.Chart.Nulled
