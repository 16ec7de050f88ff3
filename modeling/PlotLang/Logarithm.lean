import PlotLang.Binary

/-!
The natural logarithm near one.

A number `1 + x` is written as `2 ^ k * (1 + f)` with `1 + f` between the square roots of a half and
of two. With `s = f / (2 + f)` the logarithm of `1 + f` is that of `(1 + s) / (1 - s)`, which is
`f - (f ^ 2 / 2 - s * (f ^ 2 / 2 + R))` for a series `R` in the powers of `s ^ 2`. The series is cut
off after seven terms, with coefficients that make up for the rest. The logarithm of two is the sum
of two floats, of which the first has so many trailing zeros that its small multiples are exact.
-/

namespace PlotLang

/-- The leading part of the natural logarithm of two. -/
def ln2High : Float := Float.ofBits 0x3fe62e42fee00000

/-- What the leading part of the natural logarithm of two leaves out. -/
def ln2Low : Float := Float.ofBits 0x3dea39ef35793c76

/-- The series of the logarithm in `z = s ^ 2`, without its leading term: approximately
`2 / 3 * z + 2 / 5 * z ^ 2 + 2 / 7 * z ^ 3 + ...`. -/
def logSeries (z : Float) : Float :=
  let z2 := z * z
  let z4 := z2 * z2
  let z6 := z4 * z2
  let low := mulAdd (Float.ofBits 0x3fd2492494229359) z (Float.ofBits 0x3fd999999997fa04)
  let middle := mulAdd (Float.ofBits 0x3fc7466496cb03de) z (Float.ofBits 0x3fcc71c51d8e78af)
  let high := mulAdd (Float.ofBits 0x3fc2f112df3e5244) z (Float.ofBits 0x3fc39a09d078c69f)
  mulAdd z6 high (mulAdd z4 middle (mulAdd z (Float.ofBits 0x3fe5555555555593) (z2 * low)))

/-- The natural logarithm of `2 ^ k * (1 + f)`, increased by a small correction if `k` is not zero.
Close to one the series is cut off after its second term. -/
def logReduced (k : Int) (f correction : Float) : Float :=
  let half := 0.5 * f * f
  let scale := Float.ofInt k
  let rest := mulAdd scale ln2Low correction
  if -3.0 * powerOfTwo (-21) ≤ f && f < powerOfTwo (-20) then
    let r := half * mulAdd (-(2.0 / 3.0)) f 1.0
    if k == 0 then f - r else mulAdd scale ln2High (-((r - rest) - f))
  else
    let s := f / (2.0 + f)
    let t := s * (half + logSeries (s * s))
    if k == 0 then f - (half - t) else mulAdd scale ln2High (-((half - (t + rest)) - f))

/-- The natural logarithm of `1 + x` for `x` above minus one and below `2 ^ 53`, exact in the leading
digits also where `x` is small. If `1 + x` has to be rounded, what is lost is given back as a
correction. -/
def log1p (x : Float) : Float :=
  if x.abs < powerOfTwo (-54) then x
  else if x.abs < powerOfTwo (-29) then x - x * x * 0.5
  else if Float.ofBits 0xbfd2bec400000000 < x && x < Float.ofBits 0x3fda827a00000000 then
    let half := 0.5 * x * x
    let s := x / (2.0 + x)
    x - (half - s * (half + logSeries (s * s)))
  else
    let u := 1.0 + x
    let k := binaryExponent u
    let lost := if 0 < k then 1.0 - (u - x) else x - (u - 1.0)
    let significand := u / powerOfTwo k
    if significand < Float.ofBits 0x3ff6a09e00000000 then
      logReduced k (significand - 1.0) (lost / u)
    else logReduced (k + 1) (significand / 2.0 - 1.0) (lost / u)

end PlotLang
