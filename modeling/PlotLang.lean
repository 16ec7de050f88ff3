import PlotLang.Atom
import PlotLang.Binary
import PlotLang.Builtin
import PlotLang.Builtin.Range
import PlotLang.Builtin.Run
import PlotLang.Complex
import PlotLang.Decimal
import PlotLang.Error
import PlotLang.Eval.Apply
import PlotLang.Eval.Evaluate
import PlotLang.Eval.Machine
import PlotLang.Eval.Plot
import PlotLang.Eval.Procedure
import PlotLang.Eval.Property
import PlotLang.Expr
import PlotLang.Expr.Display
import PlotLang.Expr.Equality
import PlotLang.Expr.PlotObject
import PlotLang.Form
import PlotLang.Keyword
import PlotLang.Limit
import PlotLang.Logarithm
import PlotLang.Number
import PlotLang.Numeral
import PlotLang.Plot.Bend
import PlotLang.Plot.Curve
import PlotLang.Plot.Drawing
import PlotLang.Plot.Extent
import PlotLang.Plot.Layout
import PlotLang.Plot.Options
import PlotLang.Plot.Series
import PlotLang.Proofs.Application
import PlotLang.Proofs.Budget
import PlotLang.Proofs.Builtin
import PlotLang.Proofs.Closed
import PlotLang.Proofs.Computation
import PlotLang.Proofs.Confinement
import PlotLang.Proofs.Correspondence.Basic
import PlotLang.Proofs.Correspondence.Evaluation
import PlotLang.Proofs.Correspondence.Values
import PlotLang.Proofs.Equality
import PlotLang.Proofs.Failure
import PlotLang.Proofs.Fault
import PlotLang.Proofs.FloatOrder
import PlotLang.Proofs.Form
import PlotLang.Proofs.Height
import PlotLang.Proofs.Hint
import PlotLang.Proofs.History
import PlotLang.Proofs.Invariant
import PlotLang.Proofs.Machine
import PlotLang.Proofs.Mapping
import PlotLang.Proofs.Part
import PlotLang.Proofs.Plot.Box
import PlotLang.Proofs.Plot.Extent
import PlotLang.Proofs.Plot.Items
import PlotLang.Proofs.Plot.Options
import PlotLang.Proofs.Plot.Refinement
import PlotLang.Proofs.Plot.Sampling
import PlotLang.Proofs.Progression
import PlotLang.Proofs.Property
import PlotLang.Proofs.Protection
import PlotLang.Proofs.Reading
import PlotLang.Proofs.Renaming.Expr
import PlotLang.Proofs.Renaming.Message
import PlotLang.Proofs.Renaming.Operation
import PlotLang.Proofs.Renaming.Permutation
import PlotLang.Proofs.Renaming.Store
import PlotLang.Proofs.Renaming.View
import PlotLang.Proofs.Repeatability
import PlotLang.Proofs.Scopes
import PlotLang.Proofs.Session
import PlotLang.Proofs.Shape
import PlotLang.Proofs.Source.Cursor
import PlotLang.Proofs.Source.Decomposition
import PlotLang.Proofs.Source.Denotation
import PlotLang.Proofs.Source.Derivation
import PlotLang.Proofs.Source.Descent
import PlotLang.Proofs.Source.Form
import PlotLang.Proofs.Source.Leading
import PlotLang.Proofs.Source.Lexer
import PlotLang.Proofs.Source.Lines
import PlotLang.Proofs.Source.Numeral
import PlotLang.Proofs.Source.Parameters
import PlotLang.Proofs.Source.Position
import PlotLang.Proofs.Source.Recognition
import PlotLang.Proofs.Source.RoundTrip
import PlotLang.Proofs.Source.Word
import PlotLang.Proofs.Splitting
import PlotLang.Proofs.Table
import PlotLang.Proofs.Value
import PlotLang.Scalar
import PlotLang.Session
import PlotLang.Source.Lexer
import PlotLang.Source.Reader
import PlotLang.Source.Stream
import PlotLang.Source.Token
import PlotLang.Store
import PlotLang.Symbol
import PlotLang.Table
import PlotLang.Text.Blank
import PlotLang.Text.DecimalDigit
import PlotLang.Text.Printable
import PlotLang.Text.Quoted
