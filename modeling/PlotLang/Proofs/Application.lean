import PlotLang.Proofs.Budget

/-! Calls written in two ways. A procedure may be called by its name with
arguments, or by `apply` with the list of them. The two ways look the procedure
up before any argument is evaluated, and then evaluate the arguments in turn; so
an argument that redefines the name makes no difference. They differ in depth
only: the arguments of `apply` stand one level deeper, in a list. -/
namespace PlotLang

open EStateM (Result)

namespace Expr

def symbol (x : Symbol) : Expr := leaf (.symbol x)

def call (f : Symbol) (args : List Expr) : Expr := node (.symbol f) args

def special (k : Keyword) (args : List Expr) : Expr := node (.symbol k.symbol) args

def listCall (args : List Expr) : Expr := call Builtin.list.symbol args

theorem form_symbol {x : Symbol} (hName : x.isKeyword = false) : (symbol x).form = .variable x := by
  have hKeyword : Keyword.ofSymbol? x = Option.none := by simpa [Symbol.isKeyword] using hName
  simp [form, symbol, leaf, hKeyword, isLeaf]

/-- A call needs arguments: without them the head alone would be a variable. -/
theorem form_call {f : Symbol} {args : List Expr} (hName : f.isKeyword = false)
    (hArgs : args ≠ []) : (call f args).form = .call (.symbol f) args := by
  have hKeyword : Keyword.ofSymbol? f = Option.none := by simpa [Symbol.isKeyword] using hName
  simp [form, call, node, hKeyword, isLeaf, hArgs]

theorem form_special (k : Keyword) (args : List Expr) :
    (special k args).form = .special k args := by
  simp [form, special, node]

end Expr

section Forms
variable {c : Ceiling} {d : Int} {m : Machine} {s : ScopeId} {f : Symbol} {proc : Expr}
  {args : List Expr} (hName : f.isKeyword = false) (hFound : m.store.lookup? s f = some proc)
include hName hFound

/-- The name of a procedure evaluates to the procedure wherever its level is allowed. -/
theorem evalAt_symbol (hDepth : d ≤ c.levels) : evalAt c d (.symbol f) s m = .ok proc m := by
  rw [evalAt_eq_step, if_pos hDepth, Level.step, Expr.form_symbol hName]
  simp only [EvalM.lookup_apply, hFound]

/-- A call evaluates its arguments and applies the procedure that the name had
before. -/
theorem evalAt_call (hArgs : args ≠ []) (hDepth : d ≤ c.levels) :
    evalAt c d (.call f args) s m =
      ((args.mapM fun a => evalAt c (d + 1) a s) >>= (Level.under c d).apply proc) m := by
  rw [evalAt_eq_step, if_pos hDepth, Level.step, Expr.form_call hName hArgs]
  exact EvalM.bind_of_ok (by rw [EvalM.lookup_apply, hFound])

/-- A name in the place of a procedure is looked up one level deeper, and must
stand for something callable. -/
theorem evalProcedure_symbol (form : Keyword) (hProc : proc.isCallable = true)
    (hDepth : d + 1 ≤ c.levels) :
    (Level.under c d).evalProcedure form (.symbol f) s m = .ok proc m := by
  have hKeyword : (Expr.symbol f).asSymbol?.bind Keyword.ofSymbol? = none := by
    simpa [Symbol.isKeyword, Expr.symbol, Expr.leaf, Expr.asSymbol?] using hName
  have hEval : (Level.under c d).eval (.symbol f) s m = .ok proc m :=
    evalAt_symbol hName hFound hDepth
  simp only [Level.evalProcedure, hKeyword]
  rw [EvalM.bind_of_ok hEval, if_pos hProc]
  rfl

end Forms

namespace Outcome

/-- What an evaluation answers, and the store that it leaves. -/
def settle : Result EvalError Machine Expr → Result EvalError Store Expr
  | .ok v m => .ok v m.store
  | .error e m => .error e m.store

/-- The limit is quoted by one error only, so any other outcome is known
exactly once it is known without depths and limits. -/
theorem settle_eq_of_erase_eq {x y : Result EvalError Machine Expr}
    (hFinished : isExhausted x = false) (h : erase y = erase x) : settle y = settle x := by
  have hError {e e' : EvalError} {m : Machine} (hFree : isExhausted (.error e m) = false)
      (hSame : e'.eraseLimit = e.eraseLimit) : e' = e := by
    cases e with
    | stackExhausted _ => cases hFree
    | _ => cases e' <;> simp_all [EvalError.eraseLimit]
  cases x with
  | ok v m =>
      cases y with
      | ok v' m' =>
          obtain ⟨rfl, hMachine⟩ : v' = v ∧ m'.eraseDepth = m.eraseDepth := by simpa [erase] using h
          simp [settle, Machine.store_eq_of_eraseDepth hMachine]
      | error e' m' => cases h
  | error e m =>
      cases y with
      | ok v' m' => cases h
      | error e' m' =>
          obtain ⟨hErrors, hMachine⟩ :
              e'.eraseLimit = e.eraseLimit ∧ m'.eraseDepth = m.eraseDepth := by
            simpa [erase] using h
          simp [settle, Machine.store_eq_of_eraseDepth hMachine, hError hFinished hErrors]

end Outcome

section Depth
variable (c : Ceiling) {d d' : Int} (hDepth : d' ≤ d)
include hDepth

/-- Under two ceilings of the same budget a procedure does the same. -/
theorem agree_apply (proc : Expr) (args : List Expr) (w : Timeless) :
    Correspondence.ofFinished.Agree w Correspondence.ofFinished.Same
      ((Level.under c d).apply proc args) ((Level.under c d').apply proc args) := by
  have hProc : Correspondence.ofFinished.admits w proc := trivial
  have hArgs : ∀ a ∈ args, Correspondence.ofFinished.admits w a := fun _ _ => trivial
  have hApply := (Correspondence.ofDepth_lawful _).apply
    (Correspondence.ofFinished_under c hDepth) hProc hArgs
  simpa [Correspondence.ofDepth] using hApply

/-- Arguments may be evaluated at a smaller depth than before, with the call
itself where it was. -/
theorem agree_mapM_apply (s : ScopeId) (proc : Expr) (args : List Expr) :
    Correspondence.ofFinished.Agree .always Correspondence.ofFinished.Same
      ((args.mapM fun a => evalAt c (d + 1) a s) >>= (Level.under c d').apply proc)
      ((args.mapM fun a => evalAt c (d' + 1) a s) >>= (Level.under c d').apply proc) := by
  have hArgs : ∀ a ∈ args, Correspondence.ofFinished.runs .always a s := fun _ _ => trivial
  have hValues := (Correspondence.ofDepth_lawful _).evalAll
    (Correspondence.ofFinished_under c hDepth) hArgs
  simp only [Correspondence.ofDepth, Expr.rename_refl, Renaming.scope_refl, id, List.map_id]
    at hValues
  refine hValues.bind fun w _ values _ hSame => ?_
  obtain ⟨rfl, _⟩ := hSame
  simpa [Correspondence.ofDepth] using agree_apply c (Int.le_refl d') proc values w

end Depth

/-- The built-in procedure that makes lists, as it is bound. -/
def Store.HasList (st : Store) (s : ScopeId) : Prop :=
  st.lookup? s Builtin.list.symbol = some (.leaf (.procedure .list))

section Spreading
variable {c : Ceiling} {d : Int} {m : Machine} {s : ScopeId} {f : Symbol} {proc : Expr}
  {args : List Expr} (hList : m.store.HasList s) (hArgs : args ≠ [])
include hList hArgs

/-- A call of `list` gives the list of its evaluated arguments. -/
theorem evalAt_listCall (hDepth : d ≤ c.levels) :
    evalAt c d (.listCall args) s m =
      (Expr.list <$> args.mapM fun a => evalAt c (d + 1) a s) m := by
  rw [Expr.listCall, evalAt_call (by decide) hList hArgs hDepth, map_eq_pure_bind]
  rfl

variable (hName : f.isKeyword = false) (hFound : m.store.lookup? s f = some proc)
  (hProc : proc.isCallable = true)
include hName hFound hProc

/-- A form that spreads a list over a procedure gets the procedure and then the
parts of the list, which is taken apart as soon as it is made. -/
theorem bind_evalProcedure_listCall {α : Type} (form : Keyword) (hDepth : d + 1 ≤ c.levels)
    (k : Expr → Expr → EvalM α) :
    ((Level.under c d).evalProcedure form (.symbol f) s >>= fun proc =>
        (Level.under c d).eval (.listCall args) s >>= k proc) m =
      ((args.mapM fun a => evalAt c (d + 1 + 1) a s) >>= fun values => k proc (.list values)) m := by
  have hItems : (Level.under c d).eval (.listCall args) s m =
      (Expr.list <$> args.mapM fun a => evalAt c (d + 1 + 1) a s) m :=
    evalAt_listCall hList hArgs hDepth
  rw [EvalM.bind_of_ok (evalProcedure_symbol hName hFound form hProc hDepth),
    EvalM.bind_congr hItems, bind_map_left]

/-- The arguments stand two levels deeper, below the form and the list. -/
theorem evalAt_applyForm (hDepth : d + 1 ≤ c.levels) :
    evalAt c d (.special .apply [.symbol f, .listCall args]) s m =
      ((args.mapM fun a => evalAt c (d + 1 + 1) a s) >>= (Level.under c d).apply proc) m := by
  rw [evalAt_eq_step, if_pos (by omega), Level.step, Expr.form_special]
  exact bind_evalProcedure_listCall hList hArgs hName hFound hProc .apply hDepth _

omit hList hArgs hFound hProc in
/-- The procedure argument of `apply` takes a level, whatever it is. -/
theorem levels_of_applyForm {argsExpr : Expr}
    (hFinished :
      Outcome.isExhausted (evalAt c d (.special .apply [.symbol f, argsExpr]) s m) = false) :
    d + 1 ≤ c.levels := by
  by_contra hDepth
  have hDeeper : (Level.under c d).eval (.symbol f) s m = exceed c m := by
    change evalAt c (d + 1) (.symbol f) s m = _
    rw [evalAt_eq_step, if_neg hDepth]
  have hKeyword : (Expr.symbol f).asSymbol?.bind Keyword.ofSymbol? = none := by
    simpa [Symbol.isKeyword, Expr.symbol, Expr.leaf, Expr.asSymbol?] using hName
  have hProcedure : (Level.under c d).evalProcedure .apply (.symbol f) s m = exceed c m := by
    simp only [Level.evalProcedure, hKeyword]
    exact EvalM.bind_of_error hDeeper
  rw [evalAt_eq_step] at hFinished
  split at hFinished
  · rw [Level.step, Expr.form_special] at hFinished
    change Outcome.isExhausted
      (((Level.under c d).evalProcedure .apply (.symbol f) s >>= _) m) = false at hFinished
    rw [EvalM.bind_of_error hProcedure] at hFinished
    cases hFinished
  · cases hFinished

/-- All arguments are evaluated first, and then the procedure is called for each
of them in turn. -/
theorem evalAt_mapForm (hDepth : d + 1 ≤ c.levels) :
    evalAt c d (.special .map [.symbol f, .listCall args]) s m =
      ((args.mapM fun a => evalAt c (d + 1 + 1) a s) >>= fun values =>
        Expr.list <$> values.mapM fun v => (Level.under c d).apply proc [v]) m := by
  rw [evalAt_eq_step, if_pos (by omega), Level.step, Expr.form_special]
  refine (bind_evalProcedure_listCall hList hArgs hName hFound hProc .map hDepth _).trans ?_
  simp only [map_eq_pure_bind]
  rfl

end Spreading

/-- Calling a procedure by name has the outcome of spreading the list of its
arguments, unless the levels that the list takes are what crosses the ceiling.
Nothing is asked of the arguments: they may redefine the name or fail. -/
theorem call_eq_apply {c : Ceiling} {d : Int} {m : Machine} {s : ScopeId} {f : Symbol}
    {proc : Expr} {args : List Expr} (hList : m.store.HasList s) (hName : f.isKeyword = false)
    (hFound : m.store.lookup? s f = some proc) (hProc : proc.isCallable = true) (hArgs : args ≠ [])
    (hFinished :
      Outcome.isExhausted (evalAt c d (.special .apply [.symbol f, .listCall args]) s m) = false) :
    Outcome.settle (evalAt c d (.call f args) s m) =
      Outcome.settle (evalAt c d (.special .apply [.symbol f, .listCall args]) s m) := by
  have hDepth : d + 1 ≤ c.levels := levels_of_applyForm hName hFinished
  rw [evalAt_applyForm hList hArgs hName hFound hProc hDepth] at hFinished ⊢
  rw [evalAt_call hName hFound hArgs (by omega)]
  have hResults := agree_mapM_apply c (Int.le_add_one (Int.le_refl d)) s proc args m m rfl
  exact Outcome.settle_eq_of_erase_eq hFinished (Outcome.erase_eq_of_finished hResults hFinished)

/-- A procedure whose name is redefined by its own argument. -/
theorem call_eq_apply_redefined :
    let f : Symbol := ⟨"f", by decide⟩
    let x : Symbol := ⟨"x", by decide⟩
    let initial := Store.empty.bind 0 Builtin.list.symbol (.leaf (.procedure .list))
    let m : Machine := { store := initial.bind 0 f (.lambda ⟨0, [x], 0⟩ (.symbol x)) }
    let args := [Expr.special .define [.symbol f, .string "a"]]
    let spread := Expr.special .apply [.symbol f, .listCall args]
    Outcome.isExhausted (evalAt (.exact 3) 0 spread 0 m) = false ∧
      Outcome.settle (evalAt (.exact 3) 0 (.call f args) 0 m) =
        Outcome.settle (evalAt (.exact 3) 0 spread 0 m) :=
  ⟨by decide, call_eq_apply rfl (by decide) rfl rfl (by decide) (by decide)⟩

end PlotLang
