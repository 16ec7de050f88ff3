import PlotLang.Plot.Series

/-!
The extent of the samples of a curve: the least and the greatest of their values.

Values that are equal can still differ, as the zeros of either sign do, so the order of comparing is
part of the result. The values after the first are taken in pairs. The first members of all pairs are
gone through, then the second members, with the first value at the head of both; of equal values the
last wins. A value that is left without a partner comes at the end, and there the earlier of equal
values wins. A value that is not equal to itself wins over all others.
-/

namespace PlotLang.Plot.Extent

variable {α : Type}

def firsts : List α → List α
  | a :: _ :: rest => a :: firsts rest
  | _ => []

def seconds : List α → List α
  | _ :: b :: rest => b :: seconds rest
  | _ => []

/-- What is left without a partner: the last value of a list of odd length. -/
def unpaired : List α → List α
  | _ :: _ :: rest => unpaired rest
  | rest => rest

/-- Pairing leaves out no value and adds none. -/
theorem mem_iff_paired {values : List α} {x : α} :
    x ∈ values ↔ x ∈ firsts values ∨ x ∈ seconds values ∨ x ∈ unpaired values := by
  fun_induction firsts values with
  | case1 a b rest ih => grind [firsts, seconds, unpaired]
  | case2 values h =>
    match values, h with
    | [], _ => simp [seconds, unpaired]
    | [a], _ => simp [seconds, unpaired]
    | a :: b :: rest, h => exact absurd rfl (h a b rest)

variable [BEq α]

/-- The better of two values, the later one of equals. -/
def later (precedes : α → α → Bool) (m x : α) : α :=
  if m != m then m else if precedes x m || x != x then x else m

/-- The better of two values, the earlier one of equals. -/
def earlier (precedes : α → α → Bool) (m x : α) : α := if m != m || precedes m x then m else x

/-- The extreme of a list that begins with `first`: a value that precedes or equals all others. -/
def extreme (precedes : α → α → Bool) (first : α) (values : List α) : α :=
  let paired := (firsts values ++ first :: seconds values).foldl (later precedes) first
  (unpaired values).foldl (earlier precedes) paired

variable [LE α] [DecidableLE α]

def least (first : α) (values : List α) : α := extreme (fun a b => decide (a ≤ b)) first values

def greatest (first : α) (values : List α) : α := extreme (fun a b => decide (b ≤ a)) first values

end PlotLang.Plot.Extent
