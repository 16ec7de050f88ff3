import Mathlib.Data.Nat.Find
import PlotLang.Proofs.Correspondence.Evaluation

/-! The ceiling decides whether an evaluation finishes, and nothing else. Only
the count of levels left below the ceiling matters. Once there are enough of
them, more levels change neither the value or error nor the store. The depth is
visible in two places, and these are set aside: the limit that an exhausted
evaluation quotes, and the depths in the log. -/
namespace PlotLang

open EStateM (Result)

def LogRecord.eraseDepth : LogRecord → LogRecord
  | .called c _ address scope => .called c 0 address scope
  | .ceilingExceeded _ => .ceilingExceeded 0
  | r => r

def EvalError.eraseLimit : EvalError → EvalError
  | .stackExhausted _ => .stackExhausted none
  | e => e

/-- The machine with its store as it is and the depths in its log erased. -/
def Machine.eraseDepth (m : Machine) : Machine := { m with log := m.log.map LogRecord.eraseDepth }

namespace Outcome

/-- An outcome without the depths and limits that it quotes. Value or error and
the store are kept as they are. -/
def erase : Result EvalError Machine Expr → Result EvalError Machine Expr
  | .ok v m => .ok v m.eraseDepth
  | .error e m => .error e.eraseLimit m.eraseDepth

def isExhausted : Result EvalError Machine Expr → Bool
  | .error (.stackExhausted _) _ => true
  | _ => false

@[simp] theorem isExhausted_erase (x : Result EvalError Machine Expr) :
    isExhausted (erase x) = isExhausted x := by
  cases x with
  | ok v m => rfl
  | error e m => cases e <;> rfl

end Outcome

/-- Two evaluations of the same expressions that differ in depth. An excused
error of the first allows the second to go on. -/
def Correspondence.ofDepth (excused : EvalError → Prop) : Correspondence Timeless where
  names := .refl
  admits := fun _ _ => True
  runs := fun _ _ _ => True
  machine := fun _ m m' => m.eraseDepth = m'.eraseDepth
  error := fun e e' => e.eraseLimit = e'.eraseLimit
  excused

namespace Machine

/-- Depths are recorded in the log only, so forgetting them keeps the store. -/
theorem store_eq_of_eraseDepth {m m' : Machine} (h : m.eraseDepth = m'.eraseDepth) :
    m.store = m'.store := by
  simpa [eraseDepth] using congrArg Machine.store h

theorem eraseDepth_eq_of {m m' : Machine} {st : Store} {r r' : LogRecord}
    (h : m.eraseDepth = m'.eraseDepth) (hr : r.eraseDepth = r'.eraseDepth) :
    (Machine.mk st (m.log.push r)).eraseDepth = (Machine.mk st (m'.log.push r')).eraseDepth := by
  have hLog : m.log.map LogRecord.eraseDepth = m'.log.map LogRecord.eraseDepth :=
    congrArg Machine.log h
  simp only [eraseDepth, Array.map_push, hLog, hr]

end Machine

/-- Runs that differ in their depths alone correspond step by step. -/
theorem Correspondence.ofDepth_lawful (excused : EvalError → Prop) :
    (Correspondence.ofDepth excused).Lawful where
  toValueLaws := .trivial
  runs_mono := fun _ _ => trivial
  runs_literal := fun _ _ => trivial
  runs_special := fun _ _ _ _ => trivial
  runs_call := fun _ _ _ => trivial
  error_rename := fun e => by simp [ofDepth]
  machine_logged := by
    intro w m m' r hMachine _
    have hStore := Machine.store_eq_of_eraseDepth hMachine
    simp only [ofDepth, Machine.logged, hStore]
    exact Machine.eraseDepth_eq_of hMachine rfl
  lookup := by
    intro w e s m m' _ hMachine x
    simp [ofDepth, Machine.store_eq_of_eraseDepth hMachine]
  admits_lookup := fun _ _ _ _ _ => trivial
  reserved := by
    intro w e s m m' _ hMachine x
    simp [ofDepth, Machine.store_eq_of_eraseDepth hMachine]
  defined := by
    intro w e s name value x v m m' _ _ _ _ _ hMachine _
    refine ⟨w, le_rfl, ?_⟩
    have hStore := Machine.store_eq_of_eraseDepth hMachine
    simp only [ofDepth, Machine.defined, hStore, Renaming.scope_refl, Renaming.symbol_refl, id,
      Expr.rename_refl]
    exact Machine.eraseDepth_eq_of hMachine rfl
  minted := by
    intro w e s params forms formals m m' _ _ _ _ hMachine
    have hStore := Machine.store_eq_of_eraseDepth hMachine
    refine ⟨by simp [ofDepth, hStore], w, le_rfl, ?_, trivial⟩
    have hLog : m.log.map LogRecord.eraseDepth = m'.log.map LogRecord.eraseDepth :=
      congrArg Machine.log hMachine
    simp only [ofDepth, Machine.minted, Machine.eraseDepth, hStore, hLog]
  called := by
    intro w proc c body rest args m m' d d' _ _ _ _ _ hMachine
    have hStore := Machine.store_eq_of_eraseDepth hMachine
    refine ⟨by simp [ofDepth, hStore], w, le_rfl, trivial, ?_⟩
    simp only [ofDepth, Machine.called, hStore, Closure.rename_refl, Expr.rename_refl, List.map_id]
    exact Machine.eraseDepth_eq_of hMachine rfl

namespace Outcome

/-- Evaluations of the same expression that correspond have the same outcome. -/
theorem erase_eq_of_results {excused : EvalError → Prop} {w : Timeless}
    {x y : Result EvalError Machine Expr}
    (h : (Correspondence.ofDepth excused).Results w (Correspondence.ofDepth excused).Same x y)
    (hExcused : ∀ e m, x = .error e m → ¬excused e) : erase y = erase x := by
  cases h with
  | ok _ hMachine hSame =>
      obtain ⟨rfl, _⟩ := hSame
      have hMachines : Machine.eraseDepth _ = Machine.eraseDepth _ := hMachine
      simp [erase, Correspondence.ofDepth, hMachines]
  | error _ hMachine hError =>
      have hMachines : Machine.eraseDepth _ = Machine.eraseDepth _ := hMachine
      have hErrors : EvalError.eraseLimit _ = EvalError.eraseLimit _ := hError
      simp [erase, hMachines, hErrors]
  | excused hFree => exact absurd hFree (hExcused _ _ rfl)

end Outcome

namespace Correspondence

/-- Two evaluations of the same expressions of which the first may cross its
ceiling, and then the second is free to go on. -/
abbrev ofFinished : Correspondence Timeless :=
  ofDepth fun e => e.eraseLimit = .stackExhausted none

/-- With more levels left an evaluation agrees. The two evaluations are compared
at the same depth, hence from the expression inward: the first may give up at
any point, and only then may the second go on. -/
theorem ofFinished_levels (c : Ceiling) {n n' : Nat} (hLevels : n ≤ n') (d d' : Int) :
    ofFinished.Levels ⟨d, evalWithin c n⟩ ⟨d', evalWithin c n'⟩ := by
  induction n generalizing n' d d' with
  | zero => exact fun w e s _ m m' _ => .excused rfl
  | succ n ih =>
      intro w e s hRuns
      obtain ⟨n', rfl⟩ : ∃ k, n' = k + 1 := ⟨n' - 1, by omega⟩
      have hDeeper : ofFinished.Levels ⟨c.levels - n, evalWithin c n⟩
          ⟨c.levels - n', evalWithin c n'⟩ :=
        ih (by omega) _ _
      exact (ofDepth_lawful _).step hDeeper hRuns

/-- Less depth under the same ceiling leaves more levels. -/
theorem ofFinished_under (c : Ceiling) {d d' : Int} (hDepth : d' ≤ d) :
    ofFinished.Levels (.under c d) (.under c d') := by
  have hLevels : (c.levels + 1 - (d + 1)).toNat ≤ (c.levels + 1 - (d' + 1)).toNat := by omega
  exact ofFinished_levels c hLevels d d'

end Correspondence

/-- If the first evaluation did not cross its ceiling, the second has its
outcome. -/
theorem Outcome.erase_eq_of_finished {w : Timeless} {x y : Result EvalError Machine Expr}
    (h : Correspondence.ofFinished.Results w Correspondence.ofFinished.Same x y)
    (hFinished : isExhausted x = false) : erase y = erase x := by
  refine erase_eq_of_results h fun error m hError hExhausted => ?_
  rw [hError] at hFinished
  cases error with
  | stackExhausted _ => cases hFinished
  | _ => cases hExhausted

section Within
variable (e : Expr) (s : ScopeId) (m : Machine)

/-- With equally many levels left, the ceiling is only quoted. -/
theorem erase_evalWithin_eq (c c' : Ceiling) (n : Nat) :
    Outcome.erase (evalWithin c' n e s m) = Outcome.erase (evalWithin c n e s m) := by
  have hC := Correspondence.ofDepth_lawful fun _ => False
  have hExceed (w : Timeless) : (Correspondence.ofDepth fun _ => False).Agree w
      (Correspondence.ofDepth fun _ => False).Same (exceed c) (exceed c') := by
    intro m m' hMachine
    refine Correspondence.Results.error (le_refl w) ?_ rfl
    have hStore := Machine.store_eq_of_eraseDepth hMachine
    simp only [Correspondence.ofDepth, hStore]
    exact Machine.eraseDepth_eq_of hMachine rfl
  have hResults := hC.evalWithin (w := .always) (e := e) (s := s) hExceed n trivial m m rfl
  simp only [Correspondence.ofDepth, Expr.rename_refl, Renaming.scope_refl, id] at hResults
  exact Outcome.erase_eq_of_results hResults fun _ _ _ => not_false

/-- An evaluation that does not cross its ceiling never notices the levels
that are left over, so a higher ceiling has the same outcome. -/
theorem erase_evalWithin_of_le (c : Ceiling) {n n' : Nat} (hLevels : n ≤ n')
    (hFinished : Outcome.isExhausted (evalWithin c n e s m) = false) :
    Outcome.erase (evalWithin c n' e s m) = Outcome.erase (evalWithin c n e s m) := by
  have hResults := Correspondence.ofFinished_levels c hLevels 0 0 .always e s trivial m m rfl
  simp only [Correspondence.ofFinished, Correspondence.ofDepth, Expr.rename_refl,
    Renaming.scope_refl, id] at hResults
  exact Outcome.erase_eq_of_finished hResults hFinished

end Within

/-- How many levels may nest below an expression at a depth. -/
def Ceiling.budget (c : Ceiling) (depth : Int) : Int := c.levels - depth

section Budget
variable (e : Expr) (s : ScopeId) (m : Machine)

/-- Only the levels that are left count, not how they are made up of ceiling and
depth. -/
theorem erase_evalAt_eq {c c' : Ceiling} {d d' : Int} (hBudget : c.budget d = c'.budget d') :
    Outcome.erase (evalAt c' d' e s m) = Outcome.erase (evalAt c d e s m) := by
  have hLevels : c'.levels + 1 - d' = c.levels + 1 - d := by
    unfold Ceiling.budget at hBudget
    omega
  unfold evalAt
  rw [hLevels]
  exact erase_evalWithin_eq e s m c c' _

/-- An evaluation that does not run out of levels is the same with more of them. -/
theorem erase_evalAt_of_le {c c' : Ceiling} {d d' : Int} (hBudget : c.budget d ≤ c'.budget d')
    (hFinished : Outcome.isExhausted (evalAt c d e s m) = false) :
    Outcome.erase (evalAt c' d' e s m) = Outcome.erase (evalAt c d e s m) := by
  have hLevels : (c.levels + 1 - d).toNat ≤ (c'.levels + 1 - d').toNat := by
    unfold Ceiling.budget at hBudget
    omega
  unfold evalAt at hFinished ⊢
  rw [erase_evalWithin_eq e s m c c']
  exact erase_evalWithin_of_le e s m c hLevels hFinished

/-- The expression takes one level itself, which a negative budget does not
leave. -/
theorem budget_nonneg {c : Ceiling} {d : Int}
    (hFinished : Outcome.isExhausted (evalAt c d e s m) = false) : 0 ≤ c.budget d := by
  by_contra hNegative
  have hLevels : (c.levels + 1 - d).toNat = 0 := by
    unfold Ceiling.budget at hNegative
    omega
  unfold evalAt at hFinished
  rw [hLevels] at hFinished
  cases hFinished

/-- Any ceiling and depth can be replaced by the budget itself, with nothing used
of it. -/
theorem isExhausted_evalAt_toNat {c : Ceiling} {d : Int} (hBudget : 0 ≤ c.budget d) :
    Outcome.isExhausted (evalAt (.exact (c.budget d).toNat) 0 e s m) =
      Outcome.isExhausted (evalAt c d e s m) := by
  have hSame : c.budget d = (Ceiling.exact (c.budget d).toNat).budget 0 := by
    simp only [Ceiling.budget, Ceiling.exact] at hBudget ⊢
    omega
  rw [← Outcome.isExhausted_erase, erase_evalAt_eq e s m hSame, Outcome.isExhausted_erase]

/-- The least budget that suffices, with the outcome from there on. -/
theorem exists_least_budget {c : Ceiling} {d : Int}
    (hFinished : Outcome.isExhausted (evalAt c d e s m) = false) :
    ∃ (least : Int) (outcome : Result EvalError Machine Expr),
      Outcome.isExhausted outcome = false ∧
      (∀ (c : Ceiling) (d : Int), c.budget d < least →
        Outcome.isExhausted (evalAt c d e s m) = true) ∧
      ∀ (c : Ceiling) (d : Int), least ≤ c.budget d →
        Outcome.erase (evalAt c d e s m) = outcome := by
  have hSome : ∃ n : Nat, Outcome.isExhausted (evalAt (.exact n) 0 e s m) = false := by
    refine ⟨(c.budget d).toNat, ?_⟩
    rw [isExhausted_evalAt_toNat e s m (budget_nonneg e s m hFinished), hFinished]
  have hLeast := Nat.find_spec hSome
  refine ⟨Nat.find hSome, Outcome.erase (evalAt (.exact (Nat.find hSome)) 0 e s m), ?_, ?_, ?_⟩
  · rw [Outcome.isExhausted_erase, hLeast]
  · intro c d hBelow
    cases hOutcome : Outcome.isExhausted (evalAt c d e s m) with
    | true => rfl
    | false =>
        have hBudget := budget_nonneg e s m hOutcome
        rw [← isExhausted_evalAt_toNat e s m hBudget] at hOutcome
        have hMinimal := Nat.find_min' hSome hOutcome
        omega
  · intro c d hEnough
    refine erase_evalAt_of_le e s m ?_ hLeast
    simpa [Ceiling.budget, Ceiling.exact] using hEnough

/-- Whether an evaluation finishes, and with what outcome, is decided by its
budget. All budgets that suffice have one outcome, and they are all those from
some least one on. -/
theorem evalAt_threshold :
    (∀ (c c' : Ceiling) (d d' : Int), c.budget d = c'.budget d' →
      Outcome.erase (evalAt c' d' e s m) = Outcome.erase (evalAt c d e s m)) ∧
    (∀ (c c' : Ceiling) (d d' : Int), c.budget d ≤ c'.budget d' →
      Outcome.isExhausted (evalAt c d e s m) = false →
      Outcome.erase (evalAt c' d' e s m) = Outcome.erase (evalAt c d e s m)) ∧
    ((∀ (c : Ceiling) (d : Int), Outcome.isExhausted (evalAt c d e s m) = true) ∨
      ∃ (least : Int) (outcome : Result EvalError Machine Expr),
        Outcome.isExhausted outcome = false ∧
        (∀ (c : Ceiling) (d : Int), c.budget d < least →
          Outcome.isExhausted (evalAt c d e s m) = true) ∧
        ∀ (c : Ceiling) (d : Int), least ≤ c.budget d →
          Outcome.erase (evalAt c d e s m) = outcome) := by
  refine ⟨fun c c' d d' => erase_evalAt_eq e s m, fun c c' d d' => erase_evalAt_of_le e s m, ?_⟩
  by_cases hAll : ∀ (c : Ceiling) (d : Int), Outcome.isExhausted (evalAt c d e s m) = true
  · exact .inl hAll
  · obtain ⟨c, d, hFinished⟩ : ∃ (c : Ceiling) (d : Int),
        Outcome.isExhausted (evalAt c d e s m) = false := by
      simpa using hAll
    exact .inr (exists_least_budget e s m hFinished)

/-- A sequence of one literal needs one level below it. -/
theorem evalAt_threshold_sequence :
    let e := Expr.node (.symbol Keyword.sequence.symbol) [Expr.string "a"]
    let m : Machine := { store := .empty }
    Outcome.isExhausted (evalAt (.exact 4) 4 e 0 m) = true ∧
      Outcome.isExhausted (evalAt (.exact 1) 0 e 0 m) = false ∧
      Outcome.erase (evalAt (.exact 7) 3 e 0 m) = Outcome.erase (evalAt (.exact 1) 0 e 0 m) :=
  ⟨by decide, by decide,
    (evalAt_threshold _ 0 _).2.1 (.exact 1) (.exact 7) 0 3 (by decide) (by decide)⟩

end Budget

end PlotLang
