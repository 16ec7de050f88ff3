import PlotLang.Decimal
import PlotLang.Error
import PlotLang.Scalar

/-!
Arithmetic progressions from a lower to an upper bound. The upper bound is met with a tolerance of
a billionth of a step, so that a bound that the steps reach up to rounding is kept.
-/

namespace PlotLang

variable {α : Type} [NatCast α] [Add α] [Sub α] [Mul α] [Div α]

/-- The count of elements from `start` to `stop`. `floor` gives the greatest whole number that is
not above its argument, if there is one. -/
def rangeCount {ε : Type} (floor : α → Except ε Int) (start stop step : α) : Except ε Nat := do
  let steps ← floor ((stop - start) / step + (1 : Nat) / (1000000000 : Nat))
  return (steps + 1).toNat

def rangeElements (start step : α) (count : Nat) : List α :=
  (List.range count).map fun (i : Nat) => start + (i : α) * step

/-- The range from `start` to `stop`. The bounds must be in order and the step positive. -/
def range [LT α] [LE α] [DecidableLT α] [DecidableLE α] (floor : α → Except EvalError Int)
    (start stop step : α) : Except EvalError (List α) :=
  if stop < start then .error (.mismatch .rangeReversed)
  else if step ≤ (0 : Nat) then .error (.mismatch .rangeStep)
  else return rangeElements start step (← rangeCount floor start stop step)

/-- The greatest whole number that is not above a finite decimal, or above it if it is taken with a
minus sign. -/
def Decimal.floor (negative : Bool) (d : Decimal) : Int :=
  let den := Nat.pow 10 (-d.exponent).toNat
  let num := d.digits * Nat.pow 10 d.exponent.toNat
  if negative then -((num + den - 1) / den : Nat) else (num / den : Nat)

def floorFloat (x : Float) : Except EvalError Int :=
  if x.isNaN then .error (.number .undefinedCount)
  else if x.isInf then .error (.number .infiniteCount)
  else .ok ((Decimal.ofFloat x).floor (x < 0.0))

end PlotLang
