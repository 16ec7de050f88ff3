import PlotLang.Builtin.Run

/-! What a built-in procedure can return: a number, parts of its arguments, a list
of such, or a plot object that it makes itself. It never looks into a procedure,
and it takes nothing out of an argument but the elements of a list. -/
namespace PlotLang

/-- A composed computation succeeds only if both of its parts do. -/
theorem bind_eq_ok {α β : Type} {x : Except EvalError α} {k : α → Except EvalError β} {b : β}
    (h : x >>= k = .ok b) : ∃ a, x = .ok a ∧ k a = .ok b := by
  cases x with
  | ok a => exact ⟨a, rfl, h⟩
  | error e => cases h

namespace Builtin

/-- An argument, or an element of an argument that is a list. -/
def IsPart (args : List Expr) (e : Expr) : Prop :=
  e ∈ args ∨ ∃ a ∈ args, a.isList = true ∧ e ∈ a.tail

/-- The values that a procedure can have at its arguments. -/
inductive Yields (args : List Expr) : Expr → Prop where
  | number (x : Number) : Yields args x.toExpr
  | part {e : Expr} (hPart : IsPart args e) : Yields args e
  | list {es : List Expr} (hElements : ∀ e ∈ es, IsPart args e ∨ ∃ x, e = .number x) :
      Yields args (.list es)
  | point (x y : Float) : Yields args (.point x y)
  | line {a c : Expr} (hStart : a ∈ args) (hStop : c ∈ args) (hPoints : a.isPoint && c.isPoint) :
      Yields args (.line a c)
  | label {a : Expr} {text : String} (hArgument : a ∈ args) (hText : a.asString? = some text) :
      Yields args (.label text)

variable {b : Builtin} {args : List Expr} {v : Expr}

theorem Yields.real (x : Float) : Yields args (.number x) := .number (.real x)

/-- A procedure of one argument was called with one. -/
theorem one_eq_ok {a : Expr} (h : one b args = .ok a) : args = [a] := by
  unfold one at h
  split at h
  · cases h
    rfl
  · cases h

/-- A procedure of two arguments was called with two. -/
theorem two_eq_ok {p : Expr × Expr} (h : two b args = .ok p) : args = [p.1, p.2] := by
  unfold two at h
  split at h
  · cases h
    rfl
  · cases h

/-- What is gone through as a list is one. -/
theorem elements_eq_ok {e : Expr} {es : List Expr} (h : elements b e = .ok es) :
    e.isList = true ∧ e.tail = es := by
  unfold elements at h
  by_cases hList : e.isList = true
  · rw [if_pos hList] at h
    exact ⟨hList, Except.ok.inj h⟩
  · rw [if_neg hList] at h
    cases h

/-- A list that has a first element is not empty. -/
theorem headAndRest_eq_ok {e : Expr} {p : Expr × List Expr} (h : headAndRest b e = .ok p) :
    e.isList = true ∧ e.tail = p.1 :: p.2 := by
  obtain ⟨es, hElements, h⟩ := bind_eq_ok h
  obtain ⟨hList, hTail⟩ := elements_eq_ok hElements
  cases es with
  | nil => cases h
  | cons x xs =>
      cases h
      exact ⟨hList, hTail⟩

/-- Results of arithmetic are numbers, whatever the arguments were. -/
theorem map_toExpr_yields {x : Except EvalError Number} (h : Number.toExpr <$> x = .ok v) :
    Yields args v := by
  cases x with
  | ok x =>
      cases h
      exact .number x
  | error e => cases h

theorem runOneOrTwo_yields {f : Number → Except EvalError Number}
    {g : Number → Number → Except EvalError Number} (h : runOneOrTwo b f g args = .ok v) :
    Yields args v := by
  obtain ⟨_, _, h⟩ := bind_eq_ok h
  obtain ⟨xs, _, h⟩ := bind_eq_ok h
  match xs, h with
  | [x], h => exact map_toExpr_yields h
  | [x, y], h => exact map_toExpr_yields h

theorem runFinite_yields {f : Float → Float} (h : runFinite b f args = .ok v) : Yields args v := by
  obtain ⟨a, _, h⟩ := bind_eq_ok h
  obtain ⟨x, _, h⟩ := bind_eq_ok h
  split at h
  · cases h
  · cases h
    exact .real _

theorem runPart_yields {f : Complex → Except EvalError Float} (h : runPart b f args = .ok v) :
    Yields args v := by
  obtain ⟨a, _, h⟩ := bind_eq_ok h
  obtain ⟨z, _, h⟩ := bind_eq_ok h
  obtain ⟨x, _, h⟩ := bind_eq_ok h
  cases h
  exact .real x

/-- Every procedure has one of the possible values. -/
theorem run_yields (h : run b args = .ok v) : Yields args v := by
  cases b with
  | add | mul =>
      obtain ⟨xs, _, h⟩ := bind_eq_ok h
      cases h
      exact .number _
  | sub | div => exact runOneOrTwo_yields h
  | pow =>
      obtain ⟨p, _, h⟩ := bind_eq_ok h
      obtain ⟨x, _, h⟩ := bind_eq_ok h
      obtain ⟨y, _, h⟩ := bind_eq_ok h
      obtain ⟨z, _, h⟩ := bind_eq_ok h
      cases h
      exact .number z
  | sqrt | conj =>
      obtain ⟨a, _, h⟩ := bind_eq_ok h
      obtain ⟨x, _, h⟩ := bind_eq_ok h
      cases h
      exact .number _
  | ln =>
      obtain ⟨a, _, h⟩ := bind_eq_ok h
      obtain ⟨x, _, h⟩ := bind_eq_ok h
      obtain ⟨y, _, h⟩ := bind_eq_ok h
      cases h
      exact .number y
  | sin | cos | tan => exact runFinite_yields h
  | real | imag | mag | arg => exact runPart_yields h
  | list =>
      cases h
      exact .list fun e he => .inl (.inl he)
  | first =>
      obtain ⟨a, hOne, h⟩ := bind_eq_ok h
      obtain ⟨p, hRest, h⟩ := bind_eq_ok h
      obtain ⟨hList, hTail⟩ := headAndRest_eq_ok hRest
      cases h
      exact .part (.inr ⟨a, by simp [one_eq_ok hOne], hList, by simp [hTail]⟩)
  | rest =>
      obtain ⟨a, hOne, h⟩ := bind_eq_ok h
      obtain ⟨p, hRest, h⟩ := bind_eq_ok h
      obtain ⟨hList, hTail⟩ := headAndRest_eq_ok hRest
      cases h
      exact .list fun e he =>
        .inl (.inr ⟨a, by simp [one_eq_ok hOne], hList, by simp [hTail, he]⟩)
  | length =>
      obtain ⟨a, _, h⟩ := bind_eq_ok h
      obtain ⟨xs, _, h⟩ := bind_eq_ok h
      cases h
      exact .real _
  | append =>
      obtain ⟨p, hTwo, h⟩ := bind_eq_ok h
      obtain ⟨xs, hElements, h⟩ := bind_eq_ok h
      obtain ⟨hList, rfl⟩ := elements_eq_ok hElements
      cases h
      refine .list fun e he => .inl ?_
      rcases List.mem_append.mp he with hOld | hNew
      · exact .inr ⟨p.1, by simp [two_eq_ok hTwo], hList, hOld⟩
      · refine .inl ?_
        rw [List.mem_singleton.mp hNew, two_eq_ok hTwo]
        simp
  | join =>
      obtain ⟨p, hTwo, h⟩ := bind_eq_ok h
      obtain ⟨xs, hFirst, h⟩ := bind_eq_ok h
      obtain ⟨ys, hSecond, h⟩ := bind_eq_ok h
      obtain ⟨hList, rfl⟩ := elements_eq_ok hFirst
      obtain ⟨hList', rfl⟩ := elements_eq_ok hSecond
      cases h
      refine .list fun e he => .inl (.inr ?_)
      rcases List.mem_append.mp he with hLeft | hRight
      · exact ⟨p.1, by simp [two_eq_ok hTwo], hList, hLeft⟩
      · exact ⟨p.2, by simp [two_eq_ok hTwo], hList', hRight⟩
  | range =>
      obtain ⟨_, _, h⟩ := bind_eq_ok h
      obtain ⟨xs, _, h⟩ := bind_eq_ok h
      match xs, h with
      | [start, stop, step], h =>
          obtain ⟨ys, _, h⟩ := bind_eq_ok h
          cases h
          refine .list fun e he => .inr ?_
          obtain ⟨x, _, rfl⟩ := List.mem_map.mp he
          exact ⟨x, rfl⟩
  | makePoint =>
      obtain ⟨p, _, h⟩ := bind_eq_ok h
      obtain ⟨x, _, h⟩ := bind_eq_ok h
      obtain ⟨y, _, h⟩ := bind_eq_ok h
      cases h
      exact .point x y
  | makeLine =>
      obtain ⟨p, hTwo, h⟩ := bind_eq_ok h
      by_cases hPoints : (p.1.isPoint && p.2.isPoint) = true
      · simp only [hPoints, if_true] at h
        cases h
        exact .line (by simp [two_eq_ok hTwo]) (by simp [two_eq_ok hTwo]) hPoints
      · simp only [hPoints] at h
        cases h
  | makeText =>
      obtain ⟨a, hOne, h⟩ := bind_eq_ok h
      cases hText : a.asString? with
      | some text =>
          rw [hText] at h
          cases h
          exact .label (by simp [one_eq_ok hOne]) hText
      | none =>
          rw [hText] at h
          cases h

end Builtin
end PlotLang
