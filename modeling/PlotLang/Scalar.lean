/-!
Scalars. Ranges and the geometry of plots are written for any type of numbers with the four
operations, whole numbers and an order, so that they can be studied over exact fractions while
programs run them on floats.
-/

namespace PlotLang

/-- Whole numbers as floats. -/
instance natCastFloat : NatCast Float := ⟨Float.ofNat⟩

variable {α : Type}

/-- The first least element of a list that begins with `first`. -/
def firstLeast [LT α] [DecidableLT α] (first : α) (rest : List α) : α :=
  rest.foldl (fun m x => if x < m then x else m) first

/-- The first greatest element of a list that begins with `first`. -/
def firstGreatest [LT α] [DecidableLT α] (first : α) (rest : List α) : α :=
  rest.foldl (fun m x => if m < x then x else m) first

def orOne [NatCast α] [BEq α] (x : α) : α := if x == (0 : Nat) then (1 : Nat) else x

end PlotLang
