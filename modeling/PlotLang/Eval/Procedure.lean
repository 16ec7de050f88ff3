import PlotLang.Eval.Apply

/-!
The rules of the forms that bind names, make procedures and call them.
-/

namespace PlotLang

def addFormal (formals : List Symbol) (c : Expr) : Except EvalError (List Symbol) :=
  match c.asSymbol? with
  | none => .error (.malformed (.parameterNotSymbol c))
  | some x =>
    if x.isKeyword then .error (.malformed (.parameterKeyword x))
    else if formals.contains x then .error (.malformed (.parameterDuplicate x))
    else .ok (formals ++ [x])

/-- The parameters that a parameter list declares. The reader makes the first parameter the head of
the list; an empty list reads as no value, and the list of the one parameter `list` as the empty
list. Parameters must be distinct symbols and no keywords. -/
def parseFormals (params : Expr) : Except EvalError (List Symbol) :=
  match params.head, params.tail with
  | .none, [] => .ok []
  | .list, [] => .ok [Builtin.list.symbol]
  | a, rest => (Expr.leaf a :: rest).foldlM addFormal []

/-- The body of a procedure: its one form, or its forms in sequence. -/
def bodyOf : List Expr → Expr
  | [body] => body
  | forms => Expr.node (.symbol Keyword.sequence.symbol) forms

namespace Level

/-- `(define name value)` binds a name that is not evaluated. -/
def define (lv : Level) (args : List Expr) (s : ScopeId) : EvalM Expr :=
  match args with
  | [name, value] =>
    match name.asSymbol? with
    | none => throw (.malformed .definedNotSymbol)
    | some x =>
      if x.isKeyword then throw (.malformed (.redefinesKeyword x))
      else do
        let v ← lv.eval value s
        EvalM.define s x v
        return v
  | _ => throw (.malformed (.arguments .define))

/-- `(begin form ...)` evaluates its forms in turn and has the last value. -/
def sequence (lv : Level) (args : List Expr) (s : ScopeId) : EvalM Expr :=
  if args.isEmpty then throw (.malformed (.arguments .sequence))
  else args.foldlM (fun _ e => lv.eval e s) Expr.none

/-- `(lambda (parameter ...) form ...)` makes a procedure in the current scope. -/
def lambda (args : List Expr) (s : ScopeId) : EvalM Expr :=
  match args with
  | params :: form :: forms => do
    let formals ← EvalM.ofExcept (parseFormals params)
    let c ← EvalM.makeClosure formals s
    return Expr.lambda c (bodyOf (form :: forms))
  | _ => throw (.malformed (.arguments .lambda))

/-- `(apply procedure list)` calls a procedure with the elements of a list. -/
def applyForm (lv : Level) (args : List Expr) (s : ScopeId) : EvalM Expr :=
  match args with
  | [procExpr, argsExpr] => do
    let proc ← lv.evalProcedure .apply procExpr s
    let items ← lv.eval argsExpr s
    if items.isList then lv.apply proc items.tail else throw (.mismatch (.spreadNotList .apply))
  | _ => throw (.malformed (.arguments .apply))

/-- `(map procedure list)` calls a procedure with each element of a list, from left to right. -/
def mapForm (lv : Level) (args : List Expr) (s : ScopeId) : EvalM Expr :=
  match args with
  | [procExpr, listExpr] => do
    let proc ← lv.evalProcedure .map procExpr s
    let items ← lv.eval listExpr s
    if items.isList then
      return Expr.list (← items.tail.mapM fun item => lv.apply proc [item])
    else throw (.mismatch (.spreadNotList .map))
  | _ => throw (.malformed (.arguments .map))

/-- A call by name. The procedure is looked up before the arguments are evaluated, from left to
right. -/
def call (lv : Level) (head : Atom) (args : List Expr) (s : ScopeId) : EvalM Expr :=
  match head with
  | .symbol f => do
    let proc ← EvalM.lookup s f
    let values ← args.mapM fun a => lv.eval a s
    lv.apply proc values
  | a => throw (.notCallable (.head a))

end Level
end PlotLang
