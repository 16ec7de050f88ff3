import Mathlib.Algebra.Order.Field.Basic
import Mathlib.Data.Rat.Floor
import Mathlib.Tactic.Linarith
import PlotLang.Builtin.Range

/-! Progressions over exact fractions. The count of elements is the one whole
number for which the last element is still within the tolerance above the upper
bound and the next one would not be. Everything else follows from this: no
element at or below the bound is missing, and only the last can be above it. -/
namespace PlotLang

/-- The whole part of a fraction. Every fraction has one. -/
def wholePart (x : ℚ) : Except EvalError Int := .ok ⌊x⌋

/-- What counts as the upper bound: a billionth of a step above it. -/
def upperLimit (stop step : ℚ) : ℚ := stop + 1 / 10 ^ 9 * step

/-- A progression from a lower to an upper bound, up to its last element. -/
structure IsProgression (start stop step : ℚ) (elements : List ℚ) : Prop where
  nonempty : 1 ≤ elements.length
  element : ∀ i < elements.length, elements[i]? = some (start + i * step)
  within : ∀ x ∈ elements, x ≤ upperLimit stop step
  ended : upperLimit stop step < start + elements.length * step

section Count
variable {start stop step : ℚ} (hStep : 0 < step)
include hStep

/-- The quotient that is counted compares with whole numbers as the elements
compare with the limit. -/
theorem le_quotient_iff (k : ℚ) :
    k ≤ (stop - start) / step + 1 / 10 ^ 9 ↔ start + k * step ≤ upperLimit stop step := by
  have hQuotient : ((stop - start) / step + 1 / 10 ^ 9) * step =
      stop - start + 1 / 10 ^ 9 * step := by
    rw [add_mul, div_mul_cancel₀ _ hStep.ne']
  rw [← mul_le_mul_iff_left₀ hStep, hQuotient, upperLimit]
  constructor <;> intro h <;> linarith

/-- The count is the number of steps that fit below the upper limit, and one for
the start. -/
theorem rangeCount_eq (hBounds : start ≤ stop) :
    ∃ n : Nat, rangeCount wholePart start stop step = .ok (n + 1) ∧
      start + n * step ≤ upperLimit stop step ∧
      upperLimit stop step < start + (n + 1 : Nat) * step := by
  let quotient := (stop - start) / step + 1 / 10 ^ 9
  have hQuotient : 0 ≤ quotient := by
    have hWidth : 0 ≤ (stop - start) / step := div_nonneg (sub_nonneg.mpr hBounds) hStep.le
    exact add_nonneg hWidth (by norm_num)
  obtain ⟨n, hFloor⟩ := Int.eq_ofNat_of_zero_le (Int.floor_nonneg.mpr hQuotient)
  have hTolerance : ((1 : Nat) : ℚ) / (1000000000 : Nat) = 1 / 10 ^ 9 := by norm_num
  have hCount : rangeCount wholePart start stop step = .ok (⌊quotient⌋ + 1).toNat := by
    simp only [rangeCount, wholePart, hTolerance]
    rfl
  refine ⟨n, ?_, ?_, ?_⟩
  · rw [hCount, hFloor]
    rfl
  · have hLast := Int.floor_le quotient
    rw [hFloor] at hLast
    exact (le_quotient_iff hStep _).mp hLast
  · have hNext := Int.lt_floor_add_one quotient
    rw [hFloor] at hNext
    refine not_le.mp fun hWithin => not_le.mpr hNext ?_
    rw [← le_quotient_iff hStep] at hWithin
    exact_mod_cast hWithin

end Count

/-- The elements are counted from the start and not summed up. -/
theorem getElem?_rangeElements (start step : ℚ) {i n : Nat} (hi : i < n) :
    (rangeElements start step n)[i]? = some (start + i * step) := by
  simp [rangeElements, hi]

/-- The elements increase, so it is enough to know the last. -/
theorem isProgression_rangeElements {start stop step : ℚ} (hStep : 0 < step) {n : Nat}
    (hLast : start + n * step ≤ upperLimit stop step)
    (hNext : upperLimit stop step < start + (n + 1 : Nat) * step) :
    IsProgression start stop step (rangeElements start step (n + 1)) := by
  have hLength : (rangeElements start step (n + 1)).length = n + 1 := by simp [rangeElements]
  refine ⟨?_, ?_, ?_, ?_⟩
  · rw [hLength]
    exact Nat.le_add_left 1 n
  · intro i hi
    rw [hLength] at hi
    exact getElem?_rangeElements start step hi
  · intro x hx
    obtain ⟨i, hi, rfl⟩ := List.mem_map.mp hx
    have hIndex : (i : ℚ) ≤ n := Nat.cast_le.mpr (Nat.le_of_lt_succ (List.mem_range.mp hi))
    calc start + i * step
      _ ≤ start + n * step := by gcongr
      _ ≤ upperLimit stop step := hLast
  · rw [hLength]
    exact hNext

namespace IsProgression
variable {start stop step : ℚ} {elements : List ℚ} (h : IsProgression start stop step elements)
  (hStep : 0 < step)
include h hStep

/-- Nothing up to the stop is left out. -/
theorem mem_of_le {i : Nat} (hi : start + i * step ≤ stop) : start + i * step ∈ elements := by
  have hTolerance : 0 < 1 / 10 ^ 9 * step := mul_pos (by norm_num) hStep
  have hBefore : start + i * step < start + elements.length * step := by
    have hEnded := h.ended
    rw [upperLimit] at hEnded
    linarith
  have hIndex : (i : ℚ) < elements.length :=
    lt_of_mul_lt_mul_right (lt_of_add_lt_add_left hBefore) hStep.le
  exact List.mem_of_getElem? (h.element i (Nat.cast_lt.mp hIndex))

/-- A whole step is more than the tolerance. -/
theorem last_of_lt {i : Nat} (hi : i < elements.length) (hAbove : stop < start + i * step) :
    i + 1 = elements.length := by
  by_contra hMore
  have hNext : i + 1 < elements.length := by omega
  have hWithin := h.within _ (List.mem_of_getElem? (h.element (i + 1) hNext))
  have hTolerance : 1 / 10 ^ 9 * step < step := by linarith
  rw [upperLimit, Nat.cast_succ] at hWithin
  linarith

end IsProgression

/-- Between bounds in order and with a positive step there is a progression: it
begins at the lower bound, no element is above the upper bound by more than the
tolerance, and the next one would be. So none that is within the bounds is
missing, and only the last can be above. Other bounds and steps are refused. -/
theorem range_exact (start stop step : ℚ) :
    (start ≤ stop → 0 < step → ∃ elements, range wholePart start stop step = .ok elements ∧
      IsProgression start stop step elements ∧
      (∀ i : Nat, start + i * step ≤ stop → start + i * step ∈ elements) ∧
      ∀ i < elements.length, stop < start + i * step →
        i + 1 = elements.length ∧ start + i * step - stop ≤ 1 / 10 ^ 9 * step) ∧
    (stop < start ∨ step ≤ 0 → range wholePart start stop step =
      .error (.mismatch (if stop < start then .rangeReversed else .rangeStep))) := by
  constructor
  · intro hBounds hStep
    obtain ⟨n, hCount, hLast, hNext⟩ := rangeCount_eq hStep hBounds
    have hElements := isProgression_rangeElements hStep hLast hNext
    refine ⟨_, ?_, hElements, fun i hi => hElements.mem_of_le hStep hi, fun i hi hAbove => ⟨?_, ?_⟩⟩
    · have hPositive : ¬ step ≤ ((0 : Nat) : ℚ) := by simpa using hStep
      rw [range, if_neg (not_lt.mpr hBounds), if_neg hPositive, hCount]
      rfl
    · exact hElements.last_of_lt hStep hi hAbove
    · have hWithin := hElements.within _ (List.mem_of_getElem? (hElements.element i hi))
      rw [upperLimit] at hWithin
      linarith
  · intro hRefused
    rw [range]
    split
    · rfl
    · next hOrder =>
        have hStep : step ≤ ((0 : Nat) : ℚ) := by simpa using hRefused.resolve_left hOrder
        rw [if_pos hStep]

/-- The last of two elements is above the upper bound, by half of the tolerance. -/
theorem range_exact_above :
    (0 : ℚ) ≤ 1 - 1 / 2000000000 ∧ (0 : ℚ) < 1 ∧
    (∃ elements, range wholePart 0 (1 - 1 / 2000000000) 1 = .ok elements ∧
      IsProgression 0 (1 - 1 / 2000000000) 1 elements ∧ elements.length = 2) ∧
    range wholePart 5 0 1 = .error (.mismatch .rangeReversed) := by
  have hBounds : (0 : ℚ) ≤ 1 - 1 / 2000000000 := by norm_num
  have hOrder : (0 : ℚ) < 5 := by norm_num
  obtain ⟨elements, hRange, hElements, _, _⟩ :=
    (range_exact 0 (1 - 1 / 2000000000) 1).1 hBounds one_pos
  refine ⟨hBounds, one_pos, ⟨elements, hRange, hElements, ?_⟩, ?_⟩
  · have hCount : (range wholePart 0 (1 - 1 / 2000000000) 1).toOption.map List.length = some 2 := by
      decide +kernel
    rw [hRange] at hCount
    exact Option.some.inj hCount
  · rw [(range_exact 5 0 1).2 (.inl hOrder), if_pos hOrder]

end PlotLang
