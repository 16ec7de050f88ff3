import PlotLang.Logarithm

/-!
Complex numbers with float parts. Each operation fixes its order of operations and its treatment of
infinite and undefined parts, because results are compared digit by digit.
-/

namespace PlotLang

/-- The square root of `a * a + b * b` for `0 ≤ b ≤ a` in a safe range, corrected by one step. -/
def hypotCore (a b : Float) : Float :=
  let h := (a * a + b * b).sqrt
  let (t₁, t₂) :=
    if h ≤ 2.0 * b then
      let d := h - b
      (a * (2.0 * d - a), (d - 2.0 * (a - b)) * d)
    else
      let d := h - a
      (2.0 * d * (a - 2.0 * b), (4.0 * d - b) * b + d * d)
  h - (t₁ + t₂) / (2.0 * h)

/-- The length of the hypotenuse over two sides, without overflow or underflow on the way. It is
infinite if a side is, even if the other is undefined. -/
def hypot (x y : Float) : Float :=
  if x.isInf || y.isInf then infinity
  else if x.isNaN || y.isNaN then undefinedNumber
  else
    let a := if x.abs < y.abs then y.abs else x.abs
    let b := if x.abs < y.abs then x.abs else y.abs
    let scale := powerOfTwo (-600)
    let epsilon := powerOfTwo (-54)
    if powerOfTwo 511 < a then
      if b ≤ a * epsilon then a + b else hypotCore (a * scale) (b * scale) / scale
    else if b < powerOfTwo (-459) then
      if b / epsilon ≤ a then a + b else hypotCore (a / scale) (b / scale) * scale
    else if b ≤ a * epsilon then a + b
    else hypotCore a b

structure Complex where
  re : Float
  im : Float
deriving DecidableEq

/-- Why a complex power has no value. -/
inductive PowerFault where
  /-- a positive power vanished and has no inverse, or an angle is infinite -/
  | vanished
  /-- a part of the power is infinite -/
  | outOfRange
deriving DecidableEq, Repr

namespace Complex

/-- Equality of complex numbers is that of their parts, so a number with an undefined part is not
equal to itself. -/
def equal (a b : Complex) : Bool := a.re == b.re && a.im == b.im

def one : Complex := ⟨1.0, 0.0⟩

def isZero (z : Complex) : Bool := z.re == 0.0 && z.im == 0.0

def hasInf (z : Complex) : Bool := z.re.isInf || z.im.isInf

def hasNaN (z : Complex) : Bool := z.re.isNaN || z.im.isNaN

def add (a b : Complex) : Complex := ⟨a.re + b.re, a.im + b.im⟩

def sub (a b : Complex) : Complex := ⟨a.re - b.re, a.im - b.im⟩

def mul (a b : Complex) : Complex := ⟨a.re * b.re - a.im * b.im, a.re * b.im + a.im * b.re⟩

def neg (a : Complex) : Complex := ⟨-a.re, -a.im⟩

def conj (a : Complex) : Complex := ⟨a.re, -a.im⟩

/-- The quotient, scaled by the greater part of the divisor. It is undefined if the parts of the
divisor cannot be compared. -/
def div (a b : Complex) : Complex :=
  if b.im.abs ≤ b.re.abs then
    let ratio := b.im / b.re
    let denom := b.re + b.im * ratio
    ⟨(a.re + a.im * ratio) / denom, (a.im - a.re * ratio) / denom⟩
  else if b.re.abs ≤ b.im.abs then
    let ratio := b.re / b.im
    let denom := b.re * ratio + b.im
    ⟨(a.re * ratio + a.im) / denom, (a.im * ratio - a.re) / denom⟩
  else ⟨undefinedNumber, undefinedNumber⟩

def argument (z : Complex) : Float := Float.atan2 z.im z.re

/-- Whether the angle vanishes in rounding: the number is off the real axis, its real part is positive
and finite, and the slope is too small for a float. -/
def hasVanishingArgument (z : Complex) : Bool :=
  0.0 < z.re && z.re.isFinite && z.im != 0.0 && z.im / z.re == 0.0

/-- The angle as a result of its own. It is missing where it vanishes in rounding. -/
def argument? (z : Complex) : Option Float :=
  if z.hasVanishingArgument then none else some z.argument

/-- The modulus. It is missing where it is infinite although both parts are finite. -/
def modulus? (z : Complex) : Option Float :=
  let r := hypot z.re z.im
  if r.isInf && !z.hasInf then none else some r

/-- The positive power by repeated squaring: `result * base ^ n`. The squares are taken for as many
binary digits as the fuel allows. -/
def squareMultiply : Nat → Complex → Complex → Nat → Complex
  | 0, result, _, _ => result
  | fuel + 1, result, base, n =>
    if n == 0 then result
    else
      let result := if n % 2 == 1 then result.mul base else result
      squareMultiply fuel result (base.mul base) (n / 2)

def powNat (z : Complex) (n : Nat) : Complex := squareMultiply (n.log2 + 1) one z n

/-- The power with a whole exponent; for one that is not positive, the inverse of the power. -/
def powInt (z : Complex) (n : Int) : Except PowerFault Complex :=
  if 0 < n then .ok (z.powNat n.toNat)
  else
    let d := z.powNat (-n).toNat
    if d.isZero then .error .vanished else .ok (one.div d)

/-- The power in polar form, for a base that is not zero. -/
def powPolar (z w : Complex) : Except PowerFault Complex :=
  let length := hypot z.re z.im
  let angle := z.argument
  let radius := Float.pow length w.re
  let phase := angle * w.re
  let (radius, phase) :=
    if w.im == 0.0 then (radius, phase)
    else (radius / (angle * w.im).exp, phase + w.im * length.log)
  if phase.isInf then .error .vanished
  else .ok ⟨radius * phase.cos, radius * phase.sin⟩

/-- The power. Whole exponents up to a hundred are done by multiplication, all others in polar
form. The result must not be infinite. -/
def pow (z w : Complex) : Except PowerFault Complex := do
  let r ←
    if w.im == 0.0 && w.re == w.re.floor && w.re.abs ≤ 100.0 then z.powInt w.re.toInt64.toInt
    else if z.isZero then pure ⟨0.0, 0.0⟩
    else z.powPolar w
  if r.hasInf then throw .outOfRange else return r

/-- The principal square root of a number with an infinite or undefined part. -/
def sqrtSpecial (z : Complex) : Complex :=
  if z.im.isInf then ⟨infinity, z.im⟩
  else if z.re.isInf then
    if z.re < 0.0 then
      if z.im.isNaN then ⟨undefinedNumber, infinity⟩ else ⟨0.0, withSign infinity z.im⟩
    else if z.im.isNaN then ⟨infinity, undefinedNumber⟩ else ⟨infinity, withSign 0.0 z.im⟩
  else ⟨undefinedNumber, undefinedNumber⟩

def sqrt (z : Complex) : Complex :=
  if z.hasInf || z.hasNaN then z.sqrtSpecial
  else if z.isZero then ⟨0.0, z.im⟩
  else
    let a := z.re.abs
    let b := z.im.abs
    let s :=
      if a < leastNormal && b < leastNormal then
        let up := powerOfTwo 53
        (a * up + hypot (a * up) (b * up)).sqrt * powerOfTwo (-27)
      else 2.0 * (a / 8.0 + hypot (a / 8.0) (b / 8.0)).sqrt
    let d := b / (2.0 * s)
    if 0.0 ≤ z.re then ⟨s, withSign d z.im⟩ else ⟨d, withSign s z.im⟩

def ln2 : Float := 0.6931471805599453

/-- The greatest part for which the modulus is taken without scaling down. -/
def largePart : Float := powerOfTwo 1022

/-- The natural logarithm of the modulus of a number with finite parts, not both zero. -/
def lnModulus (z : Complex) : Float :=
  let a := z.re.abs
  let b := z.im.abs
  if largePart ≤ a || largePart ≤ b then (hypot (a / 2.0) (b / 2.0)).log + ln2
  else if a < leastNormal && b < leastNormal then
    let up := powerOfTwo 53
    (hypot (a * up) (b * up)).log - 53.0 * ln2
  else
    let h := hypot a b
    if 0.71 ≤ h && h ≤ 1.73 then
      let major := if b < a then a else b
      let minor := if b < a then b else a
      log1p ((major - 1.0) * (major + 1.0) + minor * minor) / 2.0
    else h.log

def ln (z : Complex) : Complex :=
  if z.hasInf then ⟨infinity, z.argument⟩
  else if z.hasNaN then ⟨undefinedNumber, undefinedNumber⟩
  else ⟨z.lnModulus, z.argument⟩

end Complex
end PlotLang
