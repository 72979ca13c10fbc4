import IndicatorFormula.Command.Arguments
import IndicatorFormula.Command.Execution
import IndicatorFormula.Command.Folder
import IndicatorFormula.DataFile
import IndicatorFormula.DataFile.Item
import IndicatorFormula.DataFile.Name
import IndicatorFormula.DataFile.Number
import IndicatorFormula.Decimal
import IndicatorFormula.Decimal.Reading
import IndicatorFormula.Decimal.Shortest
import IndicatorFormula.Error
import IndicatorFormula.Evaluation
import IndicatorFormula.Expr
import IndicatorFormula.Expr.Parse
import IndicatorFormula.Inputs
import IndicatorFormula.Main
import IndicatorFormula.Operator
import IndicatorFormula.Program
import IndicatorFormula.Proofs.Command.Inputs
import IndicatorFormula.Proofs.DataFile.Items
import IndicatorFormula.Proofs.DataFile.Name
import IndicatorFormula.Proofs.DataFile.Number
import IndicatorFormula.Proofs.DataFile.Objects
import IndicatorFormula.Proofs.Evaluation.Checks
import IndicatorFormula.Proofs.Evaluation.Congruence
import IndicatorFormula.Proofs.Evaluation.Emptied
import IndicatorFormula.Proofs.Evaluation.Faults
import IndicatorFormula.Proofs.Evaluation.Inversion
import IndicatorFormula.Proofs.Evaluation.Length
import IndicatorFormula.Proofs.Evaluation.Missing
import IndicatorFormula.Proofs.Evaluation.Pointwise
import IndicatorFormula.Proofs.Evaluation.Substitution
import IndicatorFormula.Proofs.Grammar
import IndicatorFormula.Proofs.Grammar.Completeness
import IndicatorFormula.Proofs.Grammar.Exactness
import IndicatorFormula.Proofs.Grammar.FirstError
import IndicatorFormula.Proofs.Grammar.Lines
import IndicatorFormula.Proofs.Grammar.Nodes
import IndicatorFormula.Proofs.Grammar.Offsets
import IndicatorFormula.Proofs.Grammar.Periods
import IndicatorFormula.Proofs.Grammar.Reads
import IndicatorFormula.Proofs.Grammar.Resolution
import IndicatorFormula.Proofs.Grammar.Roots
import IndicatorFormula.Proofs.Grammar.Scopes
import IndicatorFormula.Proofs.Grammar.Semicolons
import IndicatorFormula.Proofs.Grammar.Sentences
import IndicatorFormula.Proofs.Grammar.Soundness
import IndicatorFormula.Proofs.Grammar.Steps
import IndicatorFormula.Proofs.Inputs.Alignment
import IndicatorFormula.Proofs.Inputs.Validation
import IndicatorFormula.Proofs.Layout
import IndicatorFormula.Proofs.Layout.Execution
import IndicatorFormula.Proofs.Layout.Reading
import IndicatorFormula.Proofs.Point.Exact
import IndicatorFormula.Proofs.Point.Sign
import IndicatorFormula.Proofs.Point.Value
import IndicatorFormula.Proofs.Program.Causality
import IndicatorFormula.Proofs.Program.Commutation
import IndicatorFormula.Proofs.Program.Concatenation
import IndicatorFormula.Proofs.Program.DataIndependence
import IndicatorFormula.Proofs.Program.ErrorLines
import IndicatorFormula.Proofs.Program.Failures
import IndicatorFormula.Proofs.Program.Layout
import IndicatorFormula.Proofs.Program.Names
import IndicatorFormula.Proofs.Program.Noninterference
import IndicatorFormula.Proofs.Program.Progress
import IndicatorFormula.Proofs.Program.Steps
import IndicatorFormula.Proofs.Program.TwoPasses
import IndicatorFormula.Proofs.Report.RoundTrip
import IndicatorFormula.Proofs.Series.Extremes
import IndicatorFormula.Proofs.Series.Lag
import IndicatorFormula.Proofs.Series.Mean
import IndicatorFormula.Proofs.Series.Order
import IndicatorFormula.Proofs.Series.Pointwise
import IndicatorFormula.Proofs.Series.Prefix
import IndicatorFormula.Proofs.Series.SourceWord
import IndicatorFormula.Proofs.SeriesArgument.Fields
import IndicatorFormula.Proofs.SeriesArgument.Reading
import IndicatorFormula.Proofs.Session.Alignment
import IndicatorFormula.Proofs.Session.Atomicity
import IndicatorFormula.Proofs.Session.LastWrite
import IndicatorFormula.Proofs.Session.Steps
import IndicatorFormula.Proofs.Table.Map
import IndicatorFormula.Proofs.Text
import IndicatorFormula.Proofs.Token.Concatenation
import IndicatorFormula.Proofs.Token.Division
import IndicatorFormula.Proofs.Token.LongestMatch
import IndicatorFormula.Proofs.Token.NumberValues
import IndicatorFormula.Proofs.Token.Numbers
import IndicatorFormula.Proofs.Token.Pattern
import IndicatorFormula.Proofs.Token.Spacing
import IndicatorFormula.Report
import IndicatorFormula.Series
import IndicatorFormula.Series.Arithmetic
import IndicatorFormula.Series.Lag
import IndicatorFormula.Series.Window
import IndicatorFormula.SeriesArgument
import IndicatorFormula.Session
import IndicatorFormula.SignedWord
import IndicatorFormula.Statement.Parse
import IndicatorFormula.Table
import IndicatorFormula.Table.Lemmas
import IndicatorFormula.TableM
import IndicatorFormula.Text.Blank
import IndicatorFormula.Text.Letter
import IndicatorFormula.Text.Ranges
import IndicatorFormula.Token
import IndicatorFormula.Token.Scan
import IndicatorFormula.Vocabulary
