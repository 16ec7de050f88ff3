import PlotLang.Form

/-! What the form of an expression tells about its head and its children. -/
namespace PlotLang.Expr
variable {e : Expr}

/-- A keyword form is headed by its keyword, and all children are arguments. -/
theorem of_form_special {k : Keyword} {args : List Expr} (h : e.form = .special k args) :
    e.tail = args ∧ ∃ x, e.head = .symbol x ∧ Keyword.ofSymbol? x = some k := by
  cases hHead : e.head with
  | symbol x =>
      simp only [form, hHead] at h
      cases hKeyword : Keyword.ofSymbol? x with
      | none =>
          simp only [hKeyword] at h
          split at h <;> cases h
      | some k' =>
          simp only [hKeyword, Form.special.injEq] at h
          exact ⟨h.2, x, rfl, hKeyword ▸ congrArg some h.1⟩
  | _ =>
      simp only [form, hHead] at h
      split at h <;> cases h

/-- A call is headed by no keyword and by no mark of a compound value. -/
theorem of_form_call {f : Atom} {args : List Expr} (h : e.form = .call f args) :
    e.tail = args ∧ e.isCompoundValue = false ∧
      ∀ x, e.head = .symbol x → Keyword.ofSymbol? x = Option.none := by
  cases hHead : e.head with
  | symbol x =>
      simp only [form, hHead] at h
      cases hKeyword : Keyword.ofSymbol? x with
      | none =>
          simp only [hKeyword] at h
          split at h
          · cases h
          · cases h
            refine ⟨rfl, by simp [isCompoundValue, hHead], ?_⟩
            rintro y hy
            cases hy
            exact hKeyword
      | some k => simp [hKeyword] at h
  | _ =>
      simp only [form, hHead] at h
      by_cases hLiteral : (e.isLeaf || e.isCompoundValue) = true
      · rw [if_pos hLiteral] at h
        cases h
      · rw [if_neg hLiteral] at h
        cases h
        simp only [Bool.or_eq_true, not_or, Bool.not_eq_true] at hLiteral
        exact ⟨rfl, hLiteral.2, fun x hx => by cases hx⟩

/-- An expression that is its own value is a leaf or a compound value, and no
name. -/
theorem of_form_literal (h : e.form = .literal) :
    (e.tail = [] ∨ e.isCompoundValue = true) ∧ ∀ x, e.head ≠ .symbol x := by
  cases hHead : e.head with
  | symbol x =>
      simp only [form, hHead] at h
      cases hKeyword : Keyword.ofSymbol? x with
      | none =>
          simp only [hKeyword] at h
          split at h <;> cases h
      | some k => simp [hKeyword] at h
  | _ =>
      simp only [form, hHead] at h
      by_cases hLiteral : (e.isLeaf || e.isCompoundValue) = true
      · simpa [isLeaf] using hLiteral
      · rw [if_neg hLiteral] at h
        cases h

end PlotLang.Expr
