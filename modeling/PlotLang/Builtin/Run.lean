import PlotLang.Store
import PlotLang.Builtin.Range
import PlotLang.Expr.PlotObject
import PlotLang.Number

/-!
What the built-in procedures compute from the values of their arguments. The count of arguments is
checked first, then their kinds from left to right, then the conditions on their values.
-/

namespace PlotLang

namespace Builtin

def checkArity (b : Builtin) (allowed : List Nat) (args : List Expr) : Except EvalError Unit :=
  if allowed.contains args.length then .ok () else .error (.arity (.builtin b allowed args.length))

def one (b : Builtin) (args : List Expr) : Except EvalError Expr :=
  match args with
  | [a] => .ok a
  | _ => .error (.arity (.builtin b [1] args.length))

def two (b : Builtin) (args : List Expr) : Except EvalError (Expr × Expr) :=
  match args with
  | [a, c] => .ok (a, c)
  | _ => .error (.arity (.builtin b [2] args.length))

def number (b : Builtin) (e : Expr) : Except EvalError Number :=
  match e.head, e.tail with
  | .number x, [] => .ok (.real x)
  | .complex z, [] => .ok (.complex z)
  | _, _ => .error (.mismatch (.notNumbers b))

def realNumber (b : Builtin) (e : Expr) : Except EvalError Float :=
  match e.asNumber? with
  | some x => .ok x
  | none => .error (.mismatch (.notRealNumbers b))

def complexNumber (b : Builtin) (e : Expr) : Except EvalError Complex :=
  match e.head, e.tail with
  | .complex z, [] => .ok z
  | _, _ => .error (.mismatch (.notComplex b))

def elements (b : Builtin) (e : Expr) : Except EvalError (List Expr) :=
  if e.isList then .ok e.tail else .error (.mismatch (.notList b))

/-- The first element and the others of an argument that must be a list with an element. -/
def headAndRest (b : Builtin) (e : Expr) : Except EvalError (Expr × List Expr) := do
  match ← elements b e with
  | [] => throw (.mismatch (.emptyList b))
  | x :: xs => return (x, xs)

def runOneOrTwo (b : Builtin) (f : Number → Except EvalError Number)
    (g : Number → Number → Except EvalError Number) (args : List Expr) : Except EvalError Expr := do
  checkArity b [1, 2] args
  match ← args.mapM (number b) with
  | [x] => Number.toExpr <$> f x
  | [x, y] => Number.toExpr <$> g x y
  | _ => throw (.arity (.builtin b [1, 2] args.length))

def quotient (x y : Number) : Except EvalError Number :=
  if y.isZero then .error (.mismatch .divisionByZero) else .ok (x.div y)

/-- A function of one real number that is defined at all finite numbers only. -/
def runFinite (b : Builtin) (f : Float → Float) (args : List Expr) : Except EvalError Expr := do
  let x ← realNumber b (← one b args)
  if x.isInf then throw (.number .domain) else return Expr.number (f x)

/-- A function of one complex number with a real value. -/
def runPart (b : Builtin) (f : Complex → Except EvalError Float) (args : List Expr) :
    Except EvalError Expr := do
  let z ← complexNumber b (← one b args)
  return Expr.number (← f z)

def modulus (z : Complex) : Except EvalError Float :=
  match z.modulus? with
  | some r => .ok r
  | none => .error (.number .modulusOverflow)

def angle (z : Complex) : Except EvalError Float :=
  match z.argument? with
  | some a => .ok a
  | none => .error (.number .vanishedAngle)

def run (b : Builtin) (args : List Expr) : Except EvalError Expr :=
  match b with
  | add => do
    let xs ← args.mapM (number add)
    return (xs.foldl Number.add (.real 0.0)).toExpr
  | sub => runOneOrTwo sub (fun x => .ok x.neg) (fun x y => .ok (x.sub y)) args
  | mul => do
    let xs ← args.mapM (number mul)
    return (xs.foldl Number.mul (.real 1.0)).toExpr
  | div => runOneOrTwo div (quotient (.real 1.0)) quotient args
  | pow => do
    let (x, y) ← two pow args
    let base ← number pow x
    let exponent ← number pow y
    return (← base.pow exponent).toExpr
  | sqrt => do
    let x ← number sqrt (← one sqrt args)
    return x.sqrt.toExpr
  | ln => do
    let x ← number ln (← one ln args)
    return (← x.ln).toExpr
  | sin => runFinite sin Float.sin args
  | cos => runFinite cos Float.cos args
  | tan => runFinite tan Float.tan args
  | real => runPart real (fun z => .ok z.re) args
  | imag => runPart imag (fun z => .ok z.im) args
  | mag => runPart mag modulus args
  | arg => runPart arg angle args
  | conj => do
    let z ← complexNumber conj (← one conj args)
    return (Number.complex z.conj).toExpr
  | list => .ok (Expr.list args)
  | first => do
    let (x, _) ← headAndRest first (← one first args)
    return x
  | rest => do
    let (_, xs) ← headAndRest rest (← one rest args)
    return Expr.list xs
  | length => do
    let xs ← elements length (← one length args)
    return Expr.number xs.length
  | append => do
    let (xs, x) ← two append args
    return Expr.list ((← elements append xs) ++ [x])
  | join => do
    let (a, c) ← two join args
    let xs ← elements join a
    let ys ← elements join c
    return Expr.list (xs ++ ys)
  | range => do
    checkArity range [3] args
    match ← args.mapM (realNumber range) with
    | [start, stop, step] =>
      return Expr.list ((← PlotLang.range floorFloat start stop step).map Expr.number)
    | _ => throw (.arity (.builtin range [3] args.length))
  | makePoint => do
    let (a, c) ← two makePoint args
    let x ← realNumber makePoint a
    let y ← realNumber makePoint c
    return Expr.point x y
  | makeLine => do
    let (a, c) ← two makeLine args
    if a.isPoint && c.isPoint then return Expr.line a c else throw (.mismatch .lineEnds)
  | makeText => do
    let a ← one makeText args
    match a.asString? with
    | some t => return Expr.label t
    | none => throw (.mismatch .labelText)

end Builtin

def Constant.value : Constant → Number
  | pi => .real 3.141592653589793
  | e => .real 2.718281828459045
  | i => .complex ⟨0.0, 1.0⟩

namespace Store

/-- The store of a new session: one root scope with the procedures and the constants. -/
def initial : Store :=
  let procedures := Builtin.all.map fun b => (b.symbol, Expr.leaf (.procedure b))
  let constants := Constant.all.map fun c => (c.symbol, c.value.toExpr)
  (procedures ++ constants).foldl (fun st (x, v) => st.register root x v) empty

end Store
end PlotLang
