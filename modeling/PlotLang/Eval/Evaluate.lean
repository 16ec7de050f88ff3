import PlotLang.Eval.Plot
import PlotLang.Eval.Procedure
import PlotLang.Eval.Property
import PlotLang.Form
import PlotLang.Limit

/-!
Evaluation. The rule of a form is applied at a level, which knows evaluation one level deeper; the
levels are stacked up to a ceiling. Crossing the ceiling is an error of its own, whatever the
expression.
-/

namespace PlotLang

def Level.special (lv : Level) (k : Keyword) (args : List Expr) (s : ScopeId) : EvalM Expr :=
  match k with
  | .define => lv.define args s
  | .sequence => lv.sequence args s
  | .lambda => Level.lambda args s
  | .apply => lv.applyForm args s
  | .map => lv.mapForm args s
  | .setProperty => lv.setProperty args s
  | .getProperty => lv.getProperty args s
  | .discretePlot => lv.discretePlot args s
  | .continuousPlot => lv.continuousPlot args s

/-- One step of evaluation: the rule of the expression's form. -/
def Level.step (lv : Level) (e : Expr) (s : ScopeId) : EvalM Expr :=
  match e.form with
  | .literal => pure e
  | .variable x => EvalM.lookup s x
  | .special k args => lv.special k args s
  | .call head args => lv.call head args s

/-- How deep evaluation may nest, and the limit that an error quotes. -/
structure Ceiling where
  levels : Int
  quoted : Option Int

namespace Ceiling

/-- The most levels that evaluation nests, whatever limit is configured, so that a run fits the
stack of its process. An evaluation that needs more ends in an error that quotes no limit.

The number stands in for the limit that a host puts on its call frames. A host counts frames, of
which a level takes several, and so it gives up at a level that depends on the forms in between; and
it reports this in a log line of its own, where crossing this ceiling is logged as crossing any
other. -/
def hostLevels : Int := 1000

def exact (limit : Int) : Ceiling := ⟨limit, some limit⟩

def ofLimit (limit : Int) : Ceiling := if limit ≤ hostLevels then exact limit else ⟨hostLevels, none⟩

end Ceiling

def exceed (c : Ceiling) : EvalM Expr := do
  EvalM.log (.ceilingExceeded c.levels)
  throw (.stackExhausted c.quoted)

/-- Evaluation with a count of levels left below a ceiling. -/
def evalWithin (c : Ceiling) : Nat → Expr → ScopeId → EvalM Expr
  | 0, _, _ => exceed c
  | n + 1, e, s => Level.step { depth := c.levels - n, eval := evalWithin c n } e s

/-- Evaluation of an expression that is itself at a depth below a ceiling. -/
def evalAt (c : Ceiling) (depth : Int) (e : Expr) (s : ScopeId) : EvalM Expr :=
  evalWithin c (c.levels + 1 - depth).toNat e s

/-- Evaluation of an expression in a scope under a limit. -/
def evaluate (limit : Int) (e : Expr) (s : ScopeId) : EvalM Expr := evalAt (.ofLimit limit) 0 e s

end PlotLang
