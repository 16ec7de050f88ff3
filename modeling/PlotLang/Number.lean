import PlotLang.Error

/-!
Numbers of the language: real or complex. An operation on two real numbers is done in the real
numbers; as soon as one side is complex, the other is taken as a complex number with imaginary part
zero and the complex operation is done. A complex result stays complex even where its imaginary part
is zero.
-/

namespace PlotLang

/-- A number as procedures see it. -/
inductive Number where
  | real (x : Float)
  | complex (z : Complex)

namespace Number

def toComplex : Number → Complex
  | real x => ⟨x, 0.0⟩
  | complex z => z

def isZero : Number → Bool
  | real x => x == 0.0
  | complex z => z.isZero

def toAtom : Number → Atom
  | real x => .number x
  | complex z => .complex z

def toExpr (n : Number) : Expr := Expr.leaf n.toAtom

/-- An operation on real numbers and the one on complex numbers as an operation on numbers. -/
def lift₂ (f : Float → Float → Float) (g : Complex → Complex → Complex) : Number → Number → Number
  | real x, real y => real (f x y)
  | a, b => complex (g a.toComplex b.toComplex)

def add : Number → Number → Number := lift₂ (· + ·) Complex.add

def sub : Number → Number → Number := lift₂ (· - ·) Complex.sub

def mul : Number → Number → Number := lift₂ (· * ·) Complex.mul

/-- The quotient by a number that is not zero. -/
def div : Number → Number → Number := lift₂ (· / ·) Complex.div

def neg : Number → Number
  | real x => real (-x)
  | complex z => complex z.neg

def complexPow (z w : Complex) : Except EvalError Number :=
  match z.pow w with
  | .ok r => .ok (complex r)
  | .error .vanished => .error (.number .vanishedPower)
  | .error .outOfRange => .error (.mismatch .powerOutOfRange)

/-- The power of real numbers. A negative base with a broken exponent gives a complex power. A
finite power of finite numbers must not be infinite. -/
def realPow (x y : Float) : Except EvalError Number :=
  if x.isFinite && y.isFinite && x < 0.0 && y != y.floor then
    complexPow ⟨x, 0.0⟩ ⟨y, 0.0⟩
  else
    let r := Float.pow x y
    if x.isFinite && y.isFinite && r.isInf then .error (.mismatch .powerOutOfRange)
    else .ok (real r)

/-- The power. Zero has no negative and no complex powers. -/
def pow (base exponent : Number) : Except EvalError Number :=
  let refused := match exponent with
    | real y => y < 0.0
    | complex _ => true
  if base.isZero && refused then .error (.mismatch .zeroPower)
  else
    match base, exponent with
    | real x, real y => realPow x y
    | a, b => complexPow a.toComplex b.toComplex

/-- The principal square root; that of a negative number is complex. -/
def sqrt : Number → Number
  | real x => if x < 0.0 then complex (Complex.sqrt ⟨x, 0.0⟩) else real x.sqrt
  | complex z => complex z.sqrt

def ln : Number → Except EvalError Number
  | real x => if x ≤ 0.0 then .error (.mismatch .lnNotPositive) else .ok (real x.log)
  | complex z => if z.isZero then .error (.mismatch .lnOfZero) else .ok (complex z.ln)

end Number
end PlotLang
