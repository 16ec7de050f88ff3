/-!
Decimal text of a number with a set count of significant digits.

A finite binary number is exactly a natural number times a power of ten, so its text is found with
natural numbers only: write the exact decimal, round it once to the wanted digits with a half going
to the even neighbour, and lay the digits out. Trailing zeros are dropped. The number is written
positionally while the exponent of its leading digit is at least -4 and below the digit count, and
with a signed exponent of at least two digits otherwise.
-/

namespace PlotLang

/-- The decimal number `digits * 10 ^ exponent`. -/
structure Decimal where
  digits : Nat
  exponent : Int
deriving Repr, DecidableEq

namespace Decimal

/-- The exact value of the magnitude of a finite float. The bit pattern gives `m * 2 ^ q`; for
negative `q` this equals `m * 5 ^ (-q)` times a power of ten. -/
def ofFloat (x : Float) : Decimal :=
  let bits := x.toBits
  let field := ((bits >>> 52) &&& 0x7ff).toNat
  let fraction := (bits &&& 0xfffffffffffff).toNat
  let m := if field == 0 then fraction else 0x10000000000000 + fraction
  let q : Int := if field == 0 then -1074 else field - 1075
  if 0 ≤ q then ⟨m * Nat.pow 2 q.toNat, 0⟩ else ⟨m * Nat.pow 5 (-q).toNat, q⟩

/-- The count of decimal digits of a natural number; zero has one. -/
def width (n : Nat) : Nat := (Nat.toDigits 10 n).length

/-- The quotient rounded to the nearest natural number, a half to the even one. -/
def roundDiv (n d : Nat) : Nat :=
  let q := n / d
  let r := n % d
  if 2 * r < d then q else if d < 2 * r then q + 1 else q + q % 2

/-- The decimal with at most `places` significant digits that is nearest to `x`. -/
def round (places : Nat) (x : Decimal) : Decimal :=
  let surplus := width x.digits - places
  if surplus == 0 then x else ⟨roundDiv x.digits (Nat.pow 10 surplus), x.exponent + surplus⟩

def leading (x : Decimal) : Int := x.exponent + (width x.digits - 1 : Nat)

def bareDigits (n : Nat) : List Char :=
  ((Nat.toDigits 10 n).reverse.dropWhile (· == '0')).reverse

/-- Digits with a point after the first `whole` of them; no point is written at the end. -/
def pointed (whole : Nat) (ds : List Char) : List Char :=
  let padded := ds ++ List.replicate (whole - ds.length) '0'
  match padded.drop whole with
  | [] => padded
  | fraction => padded.take whole ++ '.' :: fraction

def exponentText (e : Int) : List Char :=
  let ds := Nat.toDigits 10 e.natAbs
  'e' :: (if e < 0 then '-' else '+') :: (List.replicate (2 - ds.length) '0' ++ ds)

/-- The layout of a positive decimal that has already been rounded to `places` digits. -/
def layout (places : Nat) (x : Decimal) : List Char :=
  let e := x.leading
  let ds := bareDigits x.digits
  if e < -4 || (places : Int) ≤ e then pointed 1 ds ++ exponentText e
  else if e < 0 then '0' :: '.' :: (List.replicate (-e - 1).toNat '0' ++ ds)
  else pointed (e.toNat + 1) ds

end Decimal

/-- The text of a float with `places` significant digits. Zero keeps its sign. -/
def significant (places : Nat) (x : Float) : String :=
  if x.isNaN then "nan"
  else
    let sign := if x.toBits >>> 63 == 1 then "-" else ""
    if x.isInf then sign ++ "inf"
    else
      let exact := Decimal.ofFloat x
      if exact.digits == 0 then sign ++ "0"
      else sign ++ String.ofList ((exact.round places).layout places)

end PlotLang
