import PlotLang.Builtin.Run
import PlotLang.Eval.Machine

/-!
Calls. A procedure made by `lambda` binds its parameters in a new scope inside the scope in which it
was made and evaluates its body there; the count of arguments must be that of its parameters. A
built-in procedure computes its value from its arguments alone.
-/

namespace PlotLang

/-- What the rule of a form may use: its own depth, and evaluation one level deeper. -/
structure Level where
  depth : Int
  eval : Expr → ScopeId → EvalM Expr

namespace Level

def applyClosure (lv : Level) (c : Closure) (body : Expr) (args : List Expr) : EvalM Expr :=
  if args.length = c.formals.length then do
    let s ← EvalM.enter c.scope (c.formals.zip args)
    let m ← get
    EvalM.log (.called c lv.depth s (m.store.scope s))
    lv.eval body s
  else throw (.arity (.lambda c args.length))

def apply (lv : Level) (proc : Expr) (args : List Expr) : EvalM Expr :=
  match proc.head, proc.tail with
  | .lambda c, body :: _ => lv.applyClosure c body args
  | .procedure b, [] => EvalM.ofExcept (b.run args)
  | _, _ => throw (.notCallable (.value proc))

/-- Evaluates the procedure argument of a form. A keyword there is refused unevaluated. -/
def evalProcedure (lv : Level) (form : Keyword) (e : Expr) (s : ScopeId) : EvalM Expr :=
  match e.asSymbol?.bind Keyword.ofSymbol? with
  | some k => throw (.notCallable (.keyword k form))
  | none => do
    let proc ← lv.eval e s
    if proc.isCallable then return proc else throw (.notCallable (.argument form proc))

end Level
end PlotLang
