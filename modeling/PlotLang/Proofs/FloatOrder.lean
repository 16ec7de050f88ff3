import Mathlib.Data.Int.Order.Basic
import Mathlib.Data.Prod.Lex
import Mathlib.Order.Compare

/-! The order of numbers. A number stands somewhere on a line unless it is undefined,
and comparisons are those of the places on the line. An undefined number stands
nowhere and is not even equal to itself, so all comparisons with it fail. -/
namespace PlotLang

open Float.Model (UnpackedFloat)

/-- Where a number stands: its sign and whether it is finite decide first, then the
exponent, then the mantissa. Zeros of both signs stand at the same place. -/
def position? : UnpackedFloat → Option (ℤ ×ₗ ℤ ×ₗ ℤ)
  | .notANumber => none
  | .infinity .negative => some (toLex (-2, toLex (0, 0)))
  | .finite .negative m e _ => some (toLex (-1, toLex (-e, -(m : ℤ))))
  | .zero _ => some (toLex (0, toLex (0, 0)))
  | .finite .positive m e _ => some (toLex (1, toLex (e, m)))
  | .infinity .positive => some (toLex (2, toLex (0, 0)))

/-- The rank of a number among all numbers. -/
def floatRank (x : Float) : Option (ℤ ×ₗ ℤ ×ₗ ℤ) := position? x.toModel.unpack

section Compare

/-- Pairs compare by their first parts, and by the second where these are equal. -/
theorem compare_toLex {α β : Type} [LinearOrder α] [LinearOrder β] (a a' : α) (b b' : β) :
    compare (toLex (a, b)) (toLex (a', b')) = (compare a a').then (compare b b') := by
  rw [Prod.Lex.compare_def]
  rfl

/-- Negation turns the order round. -/
theorem compare_neg (a b : ℤ) : compare (-a) (-b) = (compare a b).swap := by
  grind [Int.compare_eq_ite_lt, Ordering.swap]

theorem compare_natCast (m n : ℕ) : compare (m : ℤ) n = compare m n := by
  simp [Int.compare_eq_ite_lt, Nat.compare_eq_ite_lt]

/-- Numbers compare as their places do. Only two finite numbers of one sign take more
than their signs to compare; below zero the larger magnitude comes first. -/
theorem compare_eq_position? (a b : UnpackedFloat) :
    a.compare b = (position? a).bind fun k => (position? b).map (compare k) := by
  cases a with
  | notANumber => rfl
  | infinity s =>
      cases b with
      | notANumber => cases s <;> rfl
      | infinity t => cases s <;> cases t <;> rfl
      | zero t => cases s <;> rfl
      | finite t => cases s <;> cases t <;> rfl
  | zero s =>
      cases b with
      | notANumber => rfl
      | infinity t => cases t <;> rfl
      | zero t => rfl
      | finite t => cases t <;> rfl
  | finite s m e =>
      cases b with
      | notANumber => cases s <;> rfl
      | infinity t => cases s <;> cases t <;> rfl
      | zero t => cases s <;> rfl
      | finite t m' e' =>
          match s, t with
          | .negative, .positive => rfl
          | .positive, .negative => rfl
          | .positive, .positive =>
              show some ((compare e e').then (compare m m')) =
                some (compare (toLex ((1 : ℤ), toLex (e, (m : ℤ))))
                  (toLex (1, toLex (e', (m' : ℤ)))))
              simp [compare_toLex, compare_natCast]
          | .negative, .negative =>
              show some ((compare e e').then (compare m m')).swap =
                some (compare (toLex ((-1 : ℤ), toLex (-e, -(m : ℤ))))
                  (toLex (-1, toLex (-e', -(m' : ℤ)))))
              simp [compare_toLex, compare_natCast, compare_neg, Ordering.swap_then]

/-- An undefined number alone stands nowhere. -/
theorem position?_eq_none_iff (a : UnpackedFloat) : position? a = none ↔ a.isNaN = true := by
  cases a with
  | notANumber => exact iff_of_true rfl rfl
  | infinity s => cases s <;> exact iff_of_false nofun nofun
  | zero => exact iff_of_false nofun nofun
  | finite s => cases s <;> exact iff_of_false nofun nofun

end Compare

section Order
variable (x y : Float)

/-- Being less is being further left on the line, for numbers that stand on it. -/
theorem float_lt_iff :
    x < y ↔ ∃ k l, floatRank x = some k ∧ floatRank y = some l ∧ k < l := by
  have hModel : x < y ↔ (x.toModel.unpack.compare y.toModel.unpack == some .lt) = true :=
    decide_eq_true_iff
  rw [hModel, compare_eq_position?]
  simp [floatRank, Option.bind_eq_some_iff, compare_lt_iff_lt]

theorem float_le_iff :
    x ≤ y ↔ ∃ k l, floatRank x = some k ∧ floatRank y = some l ∧ k ≤ l := by
  have hModel : x ≤ y ↔ (x.toModel.unpack.compare y.toModel.unpack).any Ordering.isLE = true :=
    decide_eq_true_iff
  rw [hModel, compare_eq_position?, floatRank, floatRank]
  cases position? x.toModel.unpack <;> cases position? y.toModel.unpack
  case some.some k l => simp [Ordering.isLE_iff_ne_gt, compare_le_iff_le]
  all_goals simp

/-- Numbers are equal if they stand at the same place, so the two zeros are. -/
theorem float_beq_iff :
    (x == y) = true ↔ ∃ k, floatRank x = some k ∧ floatRank y = some k := by
  have hModel : (x == y) = (x.toModel.unpack.compare y.toModel.unpack == some .eq) := rfl
  rw [hModel, compare_eq_position?]
  simp [floatRank, Option.bind_eq_some_iff, compare_eq_iff_eq]

theorem floatRank_eq_none_iff : floatRank x = none ↔ x.isNaN = true :=
  position?_eq_none_iff x.toModel.unpack

/-- Among defined numbers one comparison is the negation of the other. -/
theorem float_not_lt_iff : ¬x < y ↔ y ≤ x ∨ x.isNaN = true ∨ y.isNaN = true := by
  rw [float_lt_iff, float_le_iff, ← floatRank_eq_none_iff, ← floatRank_eq_none_iff]
  cases floatRank x <;> cases floatRank y <;> simp

theorem float_not_le_iff : ¬x ≤ y ↔ y < x ∨ x.isNaN = true ∨ y.isNaN = true := by
  rw [float_lt_iff, float_le_iff, ← floatRank_eq_none_iff, ← floatRank_eq_none_iff]
  cases floatRank x <;> cases floatRank y <;> simp

end Order

/-! Equality of numbers is an equivalence on the defined ones. -/

section Equality
variable {x y z : Float}

/-- Only an undefined number differs from itself. -/
theorem float_beq_self (h : x.isNaN = false) : (x == x) = true := by
  rw [Bool.eq_false_iff, Ne, ← floatRank_eq_none_iff] at h
  obtain ⟨k, hRank⟩ := Option.ne_none_iff_exists'.mp h
  exact (float_beq_iff x x).mpr ⟨k, hRank, hRank⟩

theorem float_beq_symm (h : (x == y) = true) : (y == x) = true := by
  obtain ⟨k, hx, hy⟩ := (float_beq_iff x y).mp h
  exact (float_beq_iff y x).mpr ⟨k, hy, hx⟩

theorem float_beq_trans (hxy : (x == y) = true) (hyz : (y == z) = true) : (x == z) = true := by
  obtain ⟨k, hx, hy⟩ := (float_beq_iff x y).mp hxy
  obtain ⟨l, hy', hz⟩ := (float_beq_iff y z).mp hyz
  cases hy.symm.trans hy'
  exact (float_beq_iff x z).mpr ⟨k, hx, hz⟩

end Equality

/-! Numbers against zero. -/

section Zero
variable {x : Float}

theorem isNaN_zero : (0.0 : Float).isNaN = false := rfl

/-- A number that is not negative is at least zero or undefined. -/
theorem float_not_neg_iff : ¬x < 0.0 ↔ 0.0 ≤ x ∨ x.isNaN = true := by
  simp only [float_not_lt_iff, isNaN_zero, Bool.false_eq_true, or_false]

/-- A number that is not zero or negative is positive or undefined. -/
theorem float_not_nonpos_iff : ¬x ≤ 0.0 ↔ 0.0 < x ∨ x.isNaN = true := by
  simp only [float_not_le_iff, isNaN_zero, Bool.false_eq_true, or_false]

theorem float_not_nonpos_of_pos (h : 0.0 < x) : ¬x ≤ 0.0 :=
  float_not_nonpos_iff.mpr (.inl h)

/-- The test that asks for a positive number does not let an undefined one through. -/
theorem float_not_pos_of_isNaN (h : x.isNaN = true) : ¬0.0 < x :=
  (float_not_lt_iff 0.0 x).mpr (.inr (.inr h))

end Zero
end PlotLang
