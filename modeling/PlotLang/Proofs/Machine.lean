import PlotLang.Eval.Evaluate
import PlotLang.Proofs.Table

/-! The operations on a machine as equations between states. A call is one
step here: it appends a scope that already binds the parameters. No operation
takes a scope away or puts one in front of others. -/
namespace PlotLang

namespace Scope

/-- The scope in which the body of a procedure starts. -/
def ofCall (c : Closure) (args : List Expr) : Scope where
  vars := (c.formals.zip args).foldl (fun t p => Table.put p.1 p.2 t) []
  outer := some c.scope

/-- The scope of a call holds nothing but the arguments. -/
theorem mem_args_of_mem_ofCall {c : Closure} {args : List Expr} {p : Symbol × Expr}
    (h : p ∈ (ofCall c args).vars) : p.2 ∈ args := by
  rcases Table.mem_foldl_put h with hParameter | hNone
  · exact (List.of_mem_zip hParameter).2
  · cases hNone

/-- The scope of a call binds nothing but the parameters. -/
theorem mem_formals_of_mem_ofCall {c : Closure} {args : List Expr} {p : Symbol × Expr}
    (h : p ∈ (ofCall c args).vars) : p.1 ∈ c.formals := by
  rcases Table.mem_foldl_put h with hParameter | hNone
  · exact (List.of_mem_zip hParameter).1
  · cases hNone

/-- With distinct parameters the scope binds each one to the argument at its
place, and nothing else. -/
theorem ofCall_eq {c : Closure} {args : List Expr} (hFormals : c.formals.Nodup)
    (hArity : args.length = c.formals.length) :
    ofCall c args = { vars := c.formals.zip args, outer := some c.scope } := by
  have hKeys : Table.keys (c.formals.zip args) = c.formals :=
    List.map_fst_zip (Nat.le_of_eq hArity.symm)
  have hDistinct : (Table.keys ([] : List (Symbol × Expr)) ++
      Table.keys (c.formals.zip args)).Nodup := by
    rw [hKeys]
    exact hFormals
  rw [ofCall, Table.foldl_put_of_nodup hDistinct, List.nil_append]

end Scope

namespace Store
variable (st : Store)

/-- What a name means somewhere is bound in some scope. -/
theorem exists_mem_of_lookup? {st : Store} {s : ScopeId} {x : Symbol} {v : Expr}
    (h : st.lookup? s x = some v) : ∃ i, (x, v) ∈ (st.scope i).vars := by
  obtain ⟨i, _, hValue⟩ := Option.bind_eq_some_iff.mp h
  exact ⟨i, Table.mem_of_get? hValue⟩

/-- The store with one more scope, at the address next in line. -/
def extend (sc : Scope) : Store := { st with scopes := st.scopes.push sc }

@[simp] theorem size_extend (sc : Scope) : (st.extend sc).scopes.size = st.scopes.size + 1 := by
  simp [extend]

@[simp] theorem closures_extend (sc : Scope) : (st.extend sc).closures = st.closures := rfl

theorem scope_extend (sc : Scope) (i : ScopeId) :
    (st.extend sc).scope i = if i = st.scopes.size then sc else st.scope i := by
  by_cases h : i = st.scopes.size
  · simp [scope, extend, h]
  · simp [scope, extend, Array.getElem?_push, h]

@[simp] theorem size_bind (s : ScopeId) (x : Symbol) (v : Expr) :
    (st.bind s x v).scopes.size = st.scopes.size := by
  simp [bind]

@[simp] theorem closures_bind (s : ScopeId) (x : Symbol) (v : Expr) :
    (st.bind s x v).closures = st.closures := rfl

/-- An address not in use has no scope that could bind anything. -/
theorem scope_of_size_le {i : ScopeId} (h : st.scopes.size ≤ i) : st.scope i = {} := by
  simp [scope, Array.getElem?_eq_none h]

/-- Binding in a scope that is not there does nothing. -/
theorem bind_of_size_le {s : ScopeId} (h : st.scopes.size ≤ s) (x : Symbol) (v : Expr) :
    st.bind s x v = st := by
  have hModify : st.scopes.modify s (fun sc => { sc with vars := Table.put x v sc.vars }) =
      st.scopes := by
    apply Array.ext
    · simp
    · intro i _ hi
      simp [Array.getElem_modify, Nat.ne_of_gt (Nat.lt_of_lt_of_le hi h)]
  simp [bind, hModify]

/-- Binding a name changes a scope in nothing but its variables. -/
theorem exists_scope_bind (s : ScopeId) (x : Symbol) (v : Expr) (i : ScopeId) :
    ∃ vars, (st.bind s x v).scope i = { st.scope i with vars } := by
  by_cases hOwn : s = i
  · subst hOwn
    by_cases hScope : s < st.scopes.size
    · exact ⟨_, scope_bind_self hScope x v⟩
    · exact ⟨_, by rw [st.bind_of_size_le (Nat.le_of_not_lt hScope)]⟩
  · exact ⟨_, scope_bind_of_ne hOwn st x v⟩

/-- Binding never moves a scope. -/
theorem outer_bind (s : ScopeId) (x : Symbol) (v : Expr) (i : ScopeId) :
    ((st.bind s x v).scope i).outer = (st.scope i).outer := by
  obtain ⟨_, hScope⟩ := st.exists_scope_bind s x v i
  rw [hScope]

/-- Binding never reserves a name. -/
theorem reserved_bind (s : ScopeId) (x : Symbol) (v : Expr) (i : ScopeId) :
    ((st.bind s x v).scope i).reserved = (st.scope i).reserved := by
  obtain ⟨_, hScope⟩ := st.exists_scope_bind s x v i
  rw [hScope]

/-- After binding a scope holds the new value and what it held before. -/
theorem mem_vars_bind {s : ScopeId} {x : Symbol} {v : Expr} {i : ScopeId} {p : Symbol × Expr}
    (h : p ∈ ((st.bind s x v).scope i).vars) : p = (x, v) ∨ p ∈ (st.scope i).vars := by
  by_cases hOwn : s = i
  · subst hOwn
    by_cases hScope : s < st.scopes.size
    · rw [scope_bind_self hScope] at h
      exact Table.mem_put h
    · rw [st.bind_of_size_le (Nat.le_of_not_lt hScope)] at h
      exact .inr h
  · rw [scope_bind_of_ne hOwn] at h
    exact .inr h

theorem get?_bind_of_ne (s : ScopeId) {x y : Symbol} (h : y ≠ x) (v : Expr) (i : ScopeId) :
    Table.get? ((st.bind s x v).scope i).vars y = Table.get? (st.scope i).vars y := by
  by_cases hOwn : s = i
  · subst hOwn
    by_cases hScope : s < st.scopes.size
    · rw [scope_bind_self hScope]
      exact Table.get?_put_of_ne h v _
    · rw [st.bind_of_size_le (Nat.le_of_not_lt hScope)]
  · rw [scope_bind_of_ne hOwn]

theorem bind_extend (sc : Scope) (x : Symbol) (v : Expr) :
    (st.extend sc).bind st.scopes.size x v =
      st.extend { sc with vars := Table.put x v sc.vars } := by
  simp only [bind, extend, Store.mk.injEq, and_true]
  apply Array.ext
  · simp
  · intro i hi _
    by_cases hLast : i = st.scopes.size
    · subst hLast
      simp [Array.getElem_modify]
    · have hOld : i < st.scopes.size := by
        simp only [Array.size_modify, Array.size_push] at hi
        omega
      simp [Array.getElem_modify, Array.getElem_push, Ne.symm hLast, hOld]

/-- Binding parameters one by one in a new scope makes the scope of the call. -/
theorem foldl_bind_extend (sc : Scope) (bindings : List (Symbol × Expr)) :
    bindings.foldl (fun st' (x, v) => st'.bind st.scopes.size x v) (st.extend sc) =
      st.extend { sc with vars := bindings.foldl (fun t p => Table.put p.1 p.2 t) sc.vars } := by
  induction bindings generalizing sc with
  | nil => rfl
  | cons entry rest ih =>
      simp only [List.foldl_cons, bind_extend]
      exact ih { sc with vars := Table.put entry.1 entry.2 sc.vars }

end Store

def LogRecord.isCall : LogRecord → Bool
  | .called .. => true
  | _ => false

namespace Machine
variable (m : Machine)

def logged (r : LogRecord) : Machine := { m with log := m.log.push r }

def defined (s : ScopeId) (x : Symbol) (v : Expr) : Machine :=
  { store := m.store.bind s x v, log := m.log.push (.defined x) }

def minted : Machine := { m with store := m.store.newClosure.2 }

def called (depth : Int) (c : Closure) (args : List Expr) : Machine where
  store := m.store.extend (.ofCall c args)
  log := m.log.push (.called c depth m.store.scopes.size (.ofCall c args))

/-- The scope of a call starts with the parameters bound to the arguments. -/
theorem scope_called_self (d : Int) (c : Closure) (args : List Expr) :
    (m.called d c args).store.scope m.store.scopes.size = .ofCall c args := by
  rw [called, Store.scope_extend, if_pos rfl]

theorem scope_called_of_ne {i : ScopeId} (h : i ≠ m.store.scopes.size) (d : Int) (c : Closure)
    (args : List Expr) : (m.called d c args).store.scope i = m.store.scope i := by
  rw [called, Store.scope_extend, if_neg h]

end Machine

namespace EvalM

/-- A computation whose first part is known goes on with its second part. -/
theorem bind_of_ok {α β : Type} {x : EvalM α} {f : α → EvalM β} {a : α} {m m' : Machine}
    (h : x m = .ok a m') : (x >>= f) m = f a m' := by
  change EStateM.bind x f m = _
  rw [EStateM.bind, h]

/-- A computation whose first part fails does not begin its second part. -/
theorem bind_of_error {α β : Type} {x : EvalM α} {f : α → EvalM β} {e : EvalError} {m m' : Machine}
    (h : x m = .error e m') : (x >>= f) m = .error e m' := by
  change EStateM.bind x f m = _
  rw [EStateM.bind, h]

theorem bind_congr {α β : Type} {x y : EvalM α} {m : Machine} (h : x m = y m) (f : α → EvalM β) :
    (x >>= f) m = (y >>= f) m := by
  change EStateM.bind x f m = EStateM.bind y f m
  rw [EStateM.bind, EStateM.bind, h]

/-- A computation in two parts has a result only if both parts have one. -/
theorem exists_of_bind {α β : Type} {x : EvalM α} {f : α → EvalM β} {b : β} {m m'' : Machine}
    (h : (x >>= f) m = .ok b m'') : ∃ a m', x m = .ok a m' ∧ f a m' = .ok b m'' := by
  change EStateM.bind x f m = _ at h
  rw [EStateM.bind] at h
  cases hFirst : x m with
  | ok a m' =>
      rw [hFirst] at h
      exact ⟨a, m', rfl, h⟩
  | error e m' =>
      rw [hFirst] at h
      cases h

/-- A traversal has results if its elements have them in turn. -/
theorem mapM_cons_eq_ok_iff {α β : Type} {f : α → EvalM β} {a : α} {as : List α} {b : β}
    {bs : List β} {m m'' : Machine} :
    (a :: as).mapM f m = .ok (b :: bs) m'' ↔
      ∃ m', f a m = .ok b m' ∧ as.mapM f m' = .ok bs m'' := by
  rw [List.mapM_cons]
  constructor
  · intro h
    obtain ⟨_, m', hFirst, h⟩ := exists_of_bind h
    obtain ⟨_, _, hRest, h⟩ := exists_of_bind h
    cases h
    exact ⟨m', hFirst, hRest⟩
  · rintro ⟨m', hFirst, hRest⟩
    rw [bind_of_ok hFirst, bind_of_ok hRest]
    rfl

/-- Looking up a name changes nothing, found or not. -/
theorem lookup_apply (s : ScopeId) (x : Symbol) (m : Machine) :
    lookup s x m =
      match m.store.lookup? s x with
      | some v => .ok v m
      | none => .error (.unbound x) m := by
  change (match m.store.lookup? s x with
    | some v => (pure v : EvalM Expr)
    | none => throw (EvalError.unbound x)) m = _
  cases m.store.lookup? s x with
  | none => rfl
  | some v => rfl

/-- A definition is refused only if its name is reserved. -/
theorem define_apply (s : ScopeId) (x : Symbol) (v : Expr) (m : Machine) :
    define s x v m =
      if m.store.isReserved s x then .error (.malformed (.redefinesBuiltin x)) m
      else .ok () (m.defined s x v) := by
  by_cases h : m.store.isReserved s x
  · simp [define, Store.define, h]
  · simp [define, Store.define, h, Machine.defined]

theorem enter_apply (c : Closure) (args : List Expr) (m : Machine) :
    enter c.scope (c.formals.zip args) m =
      .ok m.store.scopes.size { m with store := m.store.extend (.ofCall c args) } := by
  have hBind := m.store.foldl_bind_extend { outer := some c.scope } (c.formals.zip args)
  exact congrArg (fun st => EStateM.Result.ok m.store.scopes.size { m with store := st }) hBind

end EvalM

namespace Level
variable (lv : Level)

/-- A call with the right count of arguments is the evaluation of the body in
the machine with the new scope, and nothing else. -/
theorem applyClosure_apply {c : Closure} {args : List Expr} (body : Expr)
    (hArity : args.length = c.formals.length) (m : Machine) :
    lv.applyClosure c body args m =
      lv.eval body m.store.scopes.size (m.called lv.depth c args) := by
  simp only [applyClosure, hArity, if_true]
  change (match EvalM.enter c.scope (c.formals.zip args) m with
    | .ok s m' => ((do
        let m ← get
        EvalM.log (.called c lv.depth s (m.store.scope s))
        lv.eval body s) : EvalM Expr) m'
    | .error e m' => .error e m') = _
  rw [EvalM.enter_apply]
  have hScope : (m.store.extend (.ofCall c args)).scope m.store.scopes.size = .ofCall c args := by
    simp [Store.scope_extend]
  change lv.eval body m.store.scopes.size (Machine.logged _ (.called c lv.depth _ _)) = _
  rw [hScope]
  rfl

/-- What the rule of a form at a depth below a ceiling may use. -/
def under (c : Ceiling) (depth : Int) : Level := { depth, eval := evalAt c (depth + 1) }

end Level

/-- The ceiling of the host is no obstacle to a single level. -/
theorem Ceiling.levels_ofLimit_nonneg_iff (limit : Int) :
    0 ≤ (ofLimit limit).levels ↔ 0 ≤ limit := by
  unfold ofLimit
  split
  · rfl
  · simp only [hostLevels] at *
    omega

/-- Evaluation compares the depth with the ceiling and applies one rule, which
evaluates one level deeper. -/
theorem evalAt_eq_step (c : Ceiling) (d : Int) (e : Expr) (s : ScopeId) :
    evalAt c d e s = if d ≤ c.levels then (Level.under c d).step e s else exceed c := by
  by_cases hDepth : d ≤ c.levels
  · obtain ⟨n, hLevels⟩ : ∃ n : Nat, c.levels = d + n := ⟨(c.levels - d).toNat, by omega⟩
    have hHere : (c.levels + 1 - d).toNat = n + 1 := by omega
    have hDeeper : evalAt c (d + 1) = evalWithin c n := by
      have hCount : (c.levels + 1 - (d + 1)).toNat = n := by omega
      funext e s
      simp only [evalAt, hCount]
    have hSame : c.levels - n = d := by omega
    rw [if_pos hDepth]
    simp only [evalAt, Level.under, hHere, evalWithin, hSame, hDeeper]
  · have hHere : (c.levels + 1 - d).toNat = 0 := by omega
    rw [if_neg hDepth]
    simp only [evalAt, hHere, evalWithin]

end PlotLang
