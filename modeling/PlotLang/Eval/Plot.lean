import PlotLang.Eval.Apply
import PlotLang.Plot.Bend
import PlotLang.Plot.Curve
import PlotLang.Plot.Drawing

/-!
The rules of the forms that make plots.
-/

namespace PlotLang

open Plot

/-- The point that an entry of plot data gives: a list of two real numbers. -/
def plotPoint (entry : Expr) : Except EvalError (Point Float) :=
  match entry.asPair? with
  | some (x, y) => .ok ⟨x, y⟩
  | none => .error (.mismatch (.plotEntry entry))

/-- The bounds of a curve, of which the lower must be the lesser. -/
def curveBounds (bounds : Expr) : Except EvalError (Float × Float) := do
  let p ← plotPoint bounds
  if p.x < p.y then return (p.x, p.y) else throw (.mismatch .plotBounds)

namespace Level

def evalOptions (lv : Level) (options : Option Expr) (s : ScopeId) : EvalM Options :=
  match options with
  | none => return {}
  | some e => do
    let given ← lv.eval e s
    EvalM.ofExcept (Options.ofExpr given)

/-- The data of a plot: a list with at least one entry. -/
def evalData (lv : Level) (e : Expr) (s : ScopeId) : EvalM (Expr × List Expr) := do
  let data ← lv.eval e s
  match data.head, data.tail with
  | .list, first :: rest => return (first, rest)
  | _, _ => throw (.mismatch .plotData)

def plotData (lv : Level) (dataExpr : Expr) (options : Option Expr) (s : ScopeId) :
    EvalM Expr := do
  let (firstEntry, entries) ← lv.evalData dataExpr s
  let options ← lv.evalOptions options s
  let first ← EvalM.ofExcept (plotPoint firstEntry)
  let rest ← EvalM.ofExcept (entries.mapM plotPoint)
  let data : Series Float := { first, rest }
  let items := discreteItems tickText options data
  EvalM.log (.discretePlot data.size items.length)
  return Expr.plot "discrete" (items.map (Item.toExpr options.textScale))

def discretePlot (lv : Level) (args : List Expr) (s : ScopeId) : EvalM Expr :=
  match args with
  | [data] => lv.plotData data none s
  | [data, options] => lv.plotData data (some options) s
  | _ => throw (.malformed (.arguments .discretePlot))

/-- The value of a plotted procedure at a number, which must be a number. -/
def sampleProcedure (lv : Level) (proc : Expr) (x : Float) : EvalM Float := do
  let y ← lv.apply proc [Expr.number x]
  match y.asNumber? with
  | some v => return v
  | none => throw (.mismatch (.sampleNotNumber y))

def plotCurve (lv : Level) (procExpr boundsExpr : Expr) (options : Option Expr) (s : ScopeId) :
    EvalM Expr := do
  let proc ← lv.evalProcedure .continuousPlot procExpr s
  let bounds ← lv.eval boundsExpr s
  let (xmin, xmax) ← EvalM.ofExcept (curveBounds bounds)
  let options ← lv.evalOptions options s
  let samples ← Curve.sample bends (lv.sampleProcedure proc) xmin xmax
  let items := continuousItems tickText options xmin xmax samples
  EvalM.log (.continuousPlot samples.size items.length)
  return Expr.plot "continuous" (items.map (Item.toExpr options.textScale))

/-- `(continuous-plot procedure (list lower upper) [options])` lays out a plot of the graph of a
procedure. -/
def continuousPlot (lv : Level) (args : List Expr) (s : ScopeId) : EvalM Expr :=
  match args with
  | [proc, bounds] => lv.plotCurve proc bounds none s
  | [proc, bounds, options] => lv.plotCurve proc bounds (some options) s
  | _ => throw (.malformed (.arguments .continuousPlot))

end Level
end PlotLang
