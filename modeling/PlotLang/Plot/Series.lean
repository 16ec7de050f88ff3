/-!
Points of the plane and series of them: the data of a plot, or the samples of a curve.
-/

namespace PlotLang.Plot

structure Point (α : Type) where
  x : α
  y : α
deriving DecidableEq, Repr

/-- A sequence of points, at least one. -/
structure Series (α : Type) where
  first : Point α
  rest : List (Point α)
deriving DecidableEq, Repr

namespace Series

variable {α : Type}

def toList (s : Series α) : List (Point α) := s.first :: s.rest

def size (s : Series α) : Nat := s.rest.length + 1

def last (s : Series α) : Point α := s.rest.getLast?.getD s.first

def segments (s : Series α) : List (Point α × Point α) := s.toList.zip s.rest

@[simp] theorem length_toList (s : Series α) : s.toList.length = s.size := by
  simp [toList, size]

/-- There is one segment less than there are points. -/
theorem length_segments (s : Series α) : s.segments.length + 1 = s.size := by
  simp [segments, toList, size]

end Series
end PlotLang.Plot
