import PlotLang.Decimal

/-!
Floats as binary numbers: special values, powers of two, and a product and a sum with one rounding.
-/

namespace PlotLang

def infinity : Float := 1.0 / 0.0

def undefinedNumber : Float := 0.0 / 0.0

def powerOfTwo (e : Int) : Float := Float.ofBits ((e + 1023).toNat.toUInt64 <<< 52)

def leastNormal : Float := powerOfTwo (-1022)

/-- The magnitude of the first number with the sign of the second. -/
def withSign (x sign : Float) : Float :=
  Float.ofBits ((x.toBits &&& 0x7fffffffffffffff) ||| (sign.toBits &&& 0x8000000000000000))

/-- The power of two below a positive normal number: `x` is `2 ^ binaryExponent x` times a number
from one up to two. -/
def binaryExponent (x : Float) : Int := (x.toBits >>> 52).toNat - 1023

/-- A finite float as an exact whole number of the units of its decimal form. -/
def exactUnits (x : Float) : Int :=
  let n : Int := (Decimal.ofFloat x).digits
  if x.toBits >>> 63 == 1 then -n else n

/-- `a * b + c` for finite numbers, rounded once. The exact decimal forms are multiplied and added
as whole numbers of the smaller unit; the nearest float is taken at the end. -/
def mulAdd (a b c : Float) : Float :=
  let productUnit := (Decimal.ofFloat a).exponent + (Decimal.ofFloat b).exponent
  let summandUnit := (Decimal.ofFloat c).exponent
  let unit := min productUnit summandUnit
  let n := exactUnits a * exactUnits b * Int.pow 10 (productUnit - unit).toNat
    + exactUnits c * Int.pow 10 (summandUnit - unit).toNat
  let magnitude := Float.ofScientific n.natAbs (unit < 0) unit.natAbs
  if n < 0 then -magnitude else magnitude

end PlotLang
