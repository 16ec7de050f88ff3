import PlotLang.Store

/-!
The state of evaluation: the store of scopes, and a log of what was done. An error keeps the state
in which it arose, so definitions made before it stay.
-/

namespace PlotLang

inductive LogRecord where
  /-- a name was defined -/
  | defined (name : Symbol)
  /-- a procedure was called at a depth, with its parameters bound in a new scope -/
  | called (c : Closure) (depth : Int) (address : ScopeId) (scope : Scope)
  /-- evaluation nested deeper than its ceiling -/
  | ceilingExceeded (levels : Int)
  | discretePlot (points items : Nat)
  | continuousPlot (samples items : Nat)
  /-- the session went back to its initial definitions -/
  | reset

namespace LogRecord

/-- The line of the log: level, source and message. -/
def text : LogRecord → String
  | defined name => "DEBUG Environment: define " ++ name.name
  | called c depth _ scope =>
    "DEBUG Apply: call lambda " ++ c.text ++ " at depth " ++ toString depth ++ " with " ++ scope.text
  | ceilingExceeded levels =>
    "WARNING Evaluator: evaluation depth ceiling " ++ toString levels ++ " exceeded"
  | discretePlot points items =>
    "DEBUG Plotting: discrete plot: " ++ toString points ++ " points, " ++ toString items ++ " items"
  | continuousPlot samples items =>
    "DEBUG Plotting: continuous plot: " ++ toString samples ++ " samples, " ++ toString items
      ++ " items"
  | reset => "INFO Interpreter: Resetting environment"

end LogRecord

/-- The state of evaluation. The log grows at its end. -/
structure Machine where
  store : Store
  log : Array LogRecord := #[]

/-- An evaluation: it changes the state and gives a result or an error. -/
abbrev EvalM := EStateM EvalError Machine

namespace EvalM

def ofExcept {α : Type} : Except EvalError α → EvalM α
  | .ok a => pure a
  | .error e => throw e

def log (r : LogRecord) : EvalM Unit := modify fun m => { m with log := m.log.push r }

def lookup (s : ScopeId) (x : Symbol) : EvalM Expr := do
  match (← get).store.lookup? s x with
  | some v => return v
  | none => throw (.unbound x)

def define (s : ScopeId) (x : Symbol) (v : Expr) : EvalM Unit := fun m =>
  match m.store.define s x v with
  | .ok store => .ok () { store, log := m.log.push (.defined x) }
  | .error e => .error e m

/-- Opens a scope inside a scope and binds parameters in it. -/
def enter (outer : ScopeId) (bindings : List (Symbol × Expr)) : EvalM ScopeId :=
  modifyGet fun m =>
    let (s, store) := m.store.push outer
    (s, { m with store := bindings.foldl (fun st (x, v) => st.bind s x v) store })

def makeClosure (formals : List Symbol) (s : ScopeId) : EvalM Closure :=
  modifyGet fun m =>
    let (identity, store) := m.store.newClosure
    ({ identity, formals, scope := s }, { m with store })

end EvalM
end PlotLang
