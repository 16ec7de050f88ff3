import PlotLang.Plot.Series
import PlotLang.Scalar

/-!
Sampling of curves. A function is sampled at the ends of twenty equal segments. Then, for at most
ten passes, every segment next to a bent vertex is halved and the function is sampled at the middle;
a pass without a bent vertex is the last.

The test for bends is a parameter: from the samples it gives a flag for each inner vertex, in order.
The function is called in a monad, so that a call can fail and leave its trace.
-/

namespace PlotLang.Plot.Curve

variable {α : Type} [NatCast α] [Add α] [Sub α] [Mul α] [Div α] [BEq α]

def segments : Nat := 20

def passes : Nat := 10

/-- The left end of the segment of a number, of equal segments from `a` to `b`. Where the length of
a segment vanishes in rounding, its multiples are taken as fractions of the whole. -/
def gridPoint (a b : α) (i : Nat) : α :=
  let width := b - a
  let step := width / (segments : α)
  (if step == (0 : Nat) then (i : α) / (segments : α) * width else (i : α) * step) + a

/-- The places of the samples after the first: the inner ends of the segments, and `b`. -/
def gridRest (a b : α) : List α := (List.range' 1 (segments - 1)).map (gridPoint a b) ++ [b]

/-- Which segments to halve: those with a bent vertex at an end. The flags are those of the inner
vertices; a missing flag counts as straight. -/
def halved (samples : Series α) (bent : List Bool) : List Bool :=
  let count := samples.size - 2
  let inner := (bent ++ List.replicate (count - bent.length) false).take count
  List.zipWith (· || ·) (false :: inner) (inner ++ [false])

variable {m : Type → Type} [Monad m]

def sampleAt (f : α → m α) (x : α) : m (Point α) := do
  let y ← f x
  return ⟨x, y⟩

/-- The samples that a segment gives besides its left end: the middle if it is halved, and the
right end. -/
def splitSegment (f : α → m α) (halve : Bool) (p q : Point α) : m (List (Point α)) :=
  if halve then do
    let middle ← sampleAt f ((p.x + q.x) / (2 : Nat))
    return [middle, q]
  else return [q]

/-- One pass of refinement with the given flags. -/
def refine (f : α → m α) (bent : List Bool) (samples : Series α) : m (Series α) := do
  let parts ← (samples.segments.zip (halved samples bent)).mapM fun ((p, q), halve) =>
    splitSegment f halve p q
  return { samples with rest := parts.flatten }

/-- Passes of refinement until no vertex is bent, at most the given count. -/
def refineWithin (bends : Series α → List Bool) (f : α → m α) : Nat → Series α → m (Series α)
  | 0, samples => return samples
  | n + 1, samples =>
    let bent := bends samples
    if bent.any id then do
      let refined ← refine f bent samples
      refineWithin bends f n refined
    else return samples

def sample (bends : Series α → List Bool) (f : α → m α) (a b : α) : m (Series α) := do
  let first ← sampleAt f (gridPoint a b 0)
  let rest ← (gridRest a b).mapM (sampleAt f)
  refineWithin bends f passes { first, rest }

end PlotLang.Plot.Curve
