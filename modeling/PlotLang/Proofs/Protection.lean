import PlotLang.Proofs.Application
import PlotLang.Proofs.Scopes

/-! Names that programs cannot take. The host registers the built-in names in the
root before any program runs, and a definition of one of them is refused in every
scope, since every scope has this root. Parameters are bound without asking, so a
call may bind a built-in name in its own scope, and nowhere else. Keywords are
refused as names and as parameters alike. -/
namespace PlotLang

namespace Store

/-- A scope without an outer one is its own root. -/
theorem rootOf_root {st : Store} (hRoot : (st.scope root).outer = none) : st.rootOf root = root := by
  simp [rootOf, chain, chainWithin, hRoot]

/-- Registering binds the name in the root and reserves it there. -/
theorem scope_register_self {st : Store} {s : ScopeId} (h : st.rootOf s < st.scopes.size)
    (x : Symbol) (v : Expr) :
    let sc := (st.bind (st.rootOf s) x v).scope (st.rootOf s)
    (st.register s x v).scope (st.rootOf s) =
      if sc.reserved.contains x then sc else { sc with reserved := sc.reserved ++ [x] } := by
  have hInUse : st.rootOf s < (st.bind (st.rootOf s) x v).scopes.size := by
    rw [size_bind]
    exact h
  simp [register, scope, Array.getElem?_modify, Array.getElem?_eq_getElem hInUse]

/-- Registering a new name adds it to the names and to the variables of the root. -/
theorem scope_register_root {st : Store} (hSize : root < st.scopes.size) {known : Table Symbol Expr}
    (hScope : st.scope root = { vars := known, reserved := Table.keys known }) {x : Symbol}
    (hNew : x ∉ Table.keys known) (v : Expr) :
    (st.register root x v).scope root =
      { vars := known ++ [(x, v)], reserved := Table.keys (known ++ [(x, v)]) } := by
  have hRoot : st.rootOf root = root := rootOf_root (by rw [hScope])
  have hBind : (st.bind root x v).scope root =
      { vars := known ++ [(x, v)], reserved := Table.keys known } := by
    rw [scope_bind_self hSize, hScope, Table.put_of_not_mem hNew]
  have hRegister := scope_register_self (hRoot.symm ▸ hSize) x v
  have hFree : ¬ (Table.keys known).contains x = true := by simpa using hNew
  rw [hRoot, hBind] at hRegister
  rw [hRegister, if_neg hFree]
  simp [Table.keys]

/-- The induction is on the names that are registered. -/
theorem foldl_register_root (bindings : List (Symbol × Expr)) {st : Store}
    (hSize : root < st.scopes.size) {known : Table Symbol Expr}
    (hScope : st.scope root = { vars := known, reserved := Table.keys known })
    (hNames : (Table.keys known ++ Table.keys bindings).Nodup) :
    (bindings.foldl (fun st (x, v) => st.register root x v) st).scope root =
      { vars := known ++ bindings, reserved := Table.keys (known ++ bindings) } := by
  induction bindings generalizing st known with
  | nil => simpa using hScope
  | cons binding bindings ih =>
      obtain ⟨x, v⟩ := binding
      have hNew : x ∉ Table.keys known := by
        intro hOld
        exact (List.nodup_append.mp hNames).2.2 x hOld x List.mem_cons_self rfl
      have hRest : (Table.keys (known ++ [(x, v)]) ++ Table.keys bindings).Nodup := by
        simpa [Table.keys] using hNames
      have hNext := ih (by simpa using hSize) (scope_register_root hSize hScope hNew v) hRest
      simpa using hNext

/-- No name is registered twice, so the order of registering does not matter. -/
theorem nodup_initialBindings : (Table.keys initialBindings).Nodup := by decide +kernel

/-- The root of the initial store has the built-in names and nothing else. -/
theorem scope_initial_root :
    initial.scope root = { vars := initialBindings, reserved := Table.keys initialBindings } := by
  have hEmpty : root < empty.scopes.size := Nat.one_pos
  exact foldl_register_root initialBindings hEmpty (scope_empty root) nodup_initialBindings

end Store

/-- The built-in names and the keywords are safe. The root has exactly the
built-in names registered and binds them to their values. No scope binds a
keyword, and the scope of a call binds a built-in name only as a parameter. -/
structure Machine.Protected (m : Machine) : Prop where
  reserved : (m.store.scope Store.root).reserved = Table.keys Store.initialBindings
  bound : ∀ p ∈ Store.initialBindings, Table.get? (m.store.scope Store.root).vars p.1 = some p.2
  keywords : ∀ i, ∀ p ∈ (m.store.scope i).vars, p.1.isKeyword = false
  shadowed : ∀ call ∈ m.calls, ∀ p ∈ (m.store.scope call.address).vars,
    p.1 ∈ Table.keys Store.initialBindings → p.1 ∈ call.closure.formals

namespace Machine.Protected
variable {m : Machine}

/-- The names are bound and reserved before any text is read. -/
theorem initial : ({ store := Store.initial } : Machine).Protected where
  reserved := by rw [Store.scope_initial_root]
  bound := by
    intro p hp
    rw [Store.scope_initial_root]
    exact Table.get?_of_mem Store.nodup_initialBindings hp
  keywords := by
    intro i p hp
    have hNames : ∀ x ∈ Table.keys Store.initialBindings, x.isKeyword = false := by decide +kernel
    by_cases hi : i = Store.root
    · rw [hi, Store.scope_initial_root] at hp
      exact hNames p.1 (List.mem_map_of_mem hp)
    · rw [Store.scope_initial_of_ne hi] at hp
      cases hp
  shadowed := fun call hCall => by cases hCall

/-- A name that may be defined is not registered, whatever the scope. -/
theorem not_mem_of_isReserved (h : m.Protected) (hRooted : m.store.Rooted) {s : ScopeId}
    (hs : s < m.store.scopes.size) {x : Symbol} (hFree : m.store.isReserved s x = false) :
    x ∉ Table.keys Store.initialBindings := by
  rw [Store.isReserved, hRooted.rootOf hs, h.reserved] at hFree
  simpa using hFree

/-- A definition of another name leaves the protected ones bound as they were. -/
theorem defined (h : m.Protected) (s : ScopeId) {x : Symbol} (hKeyword : x.isKeyword = false)
    (hFree : x ∉ Table.keys Store.initialBindings) (v : Expr) : (m.defined s x v).Protected where
  reserved := by rw [Machine.defined, Store.reserved_bind, h.reserved]
  bound := by
    intro p hp
    have hOther : p.1 ≠ x := fun hSame => hFree (hSame ▸ List.mem_map_of_mem hp)
    rw [Machine.defined, Store.get?_bind_of_ne _ _ hOther, h.bound p hp]
  keywords := by
    intro i p hp
    rcases m.store.mem_vars_bind hp with rfl | hOld
    · exact hKeyword
    · exact h.keywords i p hOld
  shadowed := by
    intro call hCall p hp hName
    rw [calls_defined] at hCall
    rcases m.store.mem_vars_bind hp with rfl | hOld
    · exact absurd hName hFree
    · exact h.shadowed call hCall p hOld hName

/-- The parameters of a call lie in a scope of its own. They may bear protected
names there, and the root is not touched. -/
theorem called (h : m.Protected) (hRecorded : m.Recorded) (d : Int) {c : Closure}
    (hFormals : FormalsValid c.formals) (args : List Expr) : (m.called d c args).Protected := by
  have hRoot : (m.called d c args).store.scope Store.root = m.store.scope Store.root :=
    m.scope_called_of_ne hRecorded.root_ne_size d c args
  refine ⟨hRoot ▸ h.reserved, hRoot ▸ h.bound, ?_, ?_⟩
  · intro i p hp
    by_cases hNew : i = m.store.scopes.size
    · rw [hNew, m.scope_called_self] at hp
      exact hFormals.2 p.1 (Scope.mem_formals_of_mem_ofCall hp)
    · rw [m.scope_called_of_ne hNew] at hp
      exact h.keywords i p hp
  · intro call hCall p hp hName
    rw [calls_called] at hCall
    rcases List.mem_append.mp hCall with hEarlier | hLast
    · rw [m.scope_called_of_ne (Nat.ne_of_lt (hRecorded.address_lt_size hEarlier))] at hp
      exact h.shadowed call hEarlier p hp hName
    · rw [List.mem_singleton.mp hLast] at hp ⊢
      rw [m.scope_called_self] at hp
      exact Scope.mem_formals_of_mem_ofCall hp

/-- A built-in name evaluated in the root means what it was registered for, as
long as the limit lets anything be evaluated at all. -/
theorem evaluate (h : m.Protected) (hRoot : (m.store.scope Store.root).outer = none)
    {p : Symbol × Expr} (hp : p ∈ Store.initialBindings) (limit : Int) :
    PlotLang.evaluate limit (.symbol p.1) Store.root m =
      if 0 ≤ limit then .ok p.2 m
      else .error (.stackExhausted (some limit)) (m.logged (.ceilingExceeded limit)) := by
  have hBound := h.bound p hp
  have hName : p.1.isKeyword = false := h.keywords Store.root p (Table.mem_of_get? hBound)
  have hFound : m.store.lookup? Store.root p.1 = some p.2 := by
    simp [Store.lookup?, Store.find?, Store.chain, Store.chainWithin, hRoot, Table.has, hBound]
  have hLevels := Ceiling.levels_ofLimit_nonneg_iff limit
  by_cases hLimit : 0 ≤ limit
  · rw [if_pos hLimit]
    exact evalAt_symbol hName hFound (hLevels.mpr hLimit)
  · have hCeiling : Ceiling.ofLimit limit = .exact limit := by
      rw [Ceiling.ofLimit, if_pos]
      simp only [Ceiling.hostLevels]
      omega
    rw [if_neg hLimit, PlotLang.evaluate, evalAt_eq_step, if_neg (mt hLevels.mp hLimit), hCeiling]
    rfl

end Machine.Protected

namespace Invariant

/-- A definition is made in a scope that has the root around it, and the root
knows what must not be defined. -/
theorem keeps_protected : recorded.Keeps Machine.Protected where
  logged := by
    intro w m r _ hProtected hr
    exact ⟨hProtected.reserved, hProtected.bound, hProtected.keywords,
      (m.calls_logged hr).symm ▸ hProtected.shadowed⟩
  defined := by
    rintro w e s x v m hRuns hKeyword ⟨⟨⟨hExtent, hClosed⟩, _⟩, hRecorded⟩ hProtected hFree
    have hScope : s < m.store.scopes.size := by
      have hStage := hRuns.1.2
      rw [← hExtent] at hStage
      exact hStage
    have hName := hProtected.not_mem_of_isReserved (hRecorded.rooted hClosed) hScope hFree
    exact hProtected.defined s hKeyword hName v
  minted := fun _ hProtected =>
    ⟨hProtected.reserved, hProtected.bound, hProtected.keywords, hProtected.shadowed⟩
  called := by
    rintro w proc c args m d hProc hHead _ ⟨_, hRecorded⟩ hProtected
    exact hProtected.called hRecorded d (hProc.2.closure hHead).2 args

end Invariant

/-- Whatever texts a session has evaluated, the root has exactly the built-in
names registered and binds them to their values, no scope binds a keyword, and a
scope other than the root binds a built-in name only if the call that opened it
has this name as a parameter. So a built-in name evaluated in the root has its
registered value, unless the limit is below zero and the ceiling is crossed at
once. -/
theorem Session.names_protected (limit : Int) (sources : List String) :
    let machine := ((Session.new limit).after sources).machine
    let store := machine.store
    (store.scope Store.root).reserved = Table.keys Store.initialBindings ∧
    (∀ p ∈ Store.initialBindings, Table.get? (store.scope Store.root).vars p.1 = some p.2) ∧
    (∀ i, ∀ p ∈ (store.scope i).vars, p.1.isKeyword = false) ∧
    (∀ i, i ≠ Store.root → ∀ p ∈ (store.scope i).vars,
      p.1 ∈ Table.keys Store.initialBindings →
      ∃ call ∈ machine.calls, call.address = i ∧ p.1 ∈ call.closure.formals) ∧
    (machine.calls.map Call.address).Nodup ∧
    ∀ p ∈ Store.initialBindings, ∀ limit' : Int,
      evaluate limit' (.symbol p.1) Store.root machine =
        if 0 ≤ limit' then .ok p.2 machine
        else .error (.stackExhausted (some limit')) (machine.logged (.ceilingExceeded limit')) := by
  intro machine store
  obtain ⟨_, _, ⟨_, hRecorded⟩, hProtected⟩ :=
    (Invariant.recorded_preserved.along Invariant.keeps_protected).after_new
      ⟨Invariant.recorded_holds_initial, .initial⟩
      (fun _ hStage _ he => Invariant.recorded_runs_root hStage he) limit sources
  refine ⟨hProtected.reserved, hProtected.bound, hProtected.keywords, ?_, ?_, ?_⟩
  · intro i hi p hp hName
    have hScope : i < store.scopes.size := by
      by_contra hUnused
      rw [store.scope_of_size_le (Nat.le_of_not_lt hUnused)] at hp
      cases hp
    obtain ⟨call, hCall, rfl⟩ := hRecorded.exists_call hScope hi
    exact ⟨call, hCall, rfl, hProtected.shadowed call hCall p hp hName⟩
  · rw [hRecorded.addresses]
    exact List.nodup_range'
  · intro p hp limit'
    exact hProtected.evaluate hRecorded.root hp limit'

/-- A procedure with a built-in name as its parameter is called, and a definition
of this name is refused. The scope of the call binds the name, and the root still
has its value. -/
theorem Session.names_protected_shadowed :
    let pi := Constant.pi.symbol
    let machine := ((Session.new 9).after
      ["(define f (lambda (pi) pi))", "(f \"a\")", "(define pi \"b\")"]).machine
    Table.keys (machine.store.scope 1).vars = [pi] ∧
      (∃ call ∈ machine.calls, call.address = 1 ∧ pi ∈ call.closure.formals) ∧
      evaluate 0 (.symbol pi) Store.root machine = .ok Constant.pi.value.toExpr machine := by
  intro pi machine
  let f : Symbol := ⟨"f", by decide⟩
  let lambda := Expr.special .lambda [.symbol pi, .symbol pi]
  have hDefine : readSource "(define f (lambda (pi) pi))" =
      .ok [.special .define [.symbol f, lambda]] := by
    let δs : List Derivation := [.list (.word "define") [.atom (.word "f"),
      .list (.word "lambda") [.list (.word "pi") [], .atom (.word "pi")]]]
    have hDerives : Derives "(define f (lambda (pi) pi))" δs := by decide +kernel
    exact readSource_eq_ok_iff.mpr ⟨δs, hDerives, rfl⟩
  have hCall : readSource "(f \"a\")" = .ok [.call f [.string "a"]] := by
    have hDerives : Derives "(f \"a\")" [.list (.word "f") [.atom (.string "\"a\"")]] := by
      decide +kernel
    exact readSource_eq_ok_iff.mpr ⟨_, hDerives, rfl⟩
  have hRedefine : readSource "(define pi \"b\")" =
      .ok [.special .define [.symbol pi, .string "b"]] := by
    have hDerives : Derives "(define pi \"b\")"
        [.list (.word "define") [.atom (.word "pi"), .atom (.string "\"b\"")]] := by
      decide +kernel
    exact readSource_eq_ok_iff.mpr ⟨_, hDerives, rfl⟩
  have hKeys : Table.keys (machine.store.scope 1).vars = [pi] := by
    show Table.keys (Store.scope ((((Session.new 9).eval _).2.eval _).2.eval _).2.machine.store 1).vars
      = [pi]
    rw [eval_of_readSource hDefine, eval_of_readSource hCall, eval_of_readSource hRedefine]
    decide +kernel
  have hBuiltin : (pi, Constant.pi.value.toExpr) ∈ Store.initialBindings :=
    List.mem_append_right _ List.mem_cons_self
  have hName : pi ∈ Table.keys Store.initialBindings := List.mem_map_of_mem hBuiltin
  obtain ⟨_, _, _, hShadowed, _, hEvaluate⟩ := Session.names_protected 9
    ["(define f (lambda (pi) pi))", "(f \"a\")", "(define pi \"b\")"]
  have hKey : pi ∈ Table.keys (machine.store.scope 1).vars := by
    rw [hKeys]
    exact List.mem_cons_self
  obtain ⟨p, hp, hSame⟩ := List.mem_map.mp hKey
  have hCreated := hShadowed 1 (by decide) p hp (hSame ▸ hName)
  exact ⟨hKeys, hSame ▸ hCreated, hEvaluate _ hBuiltin 0⟩

/-- Under a limit below zero not even a built-in name is evaluated. -/
theorem Session.negative_limit_refuses_names :
    ((Session.new (-1)).eval "pi").1 = .error (.evaluation (.stackExhausted (some (-1)))) ∧
    ¬ ∀ (limit : Int) (sources : List String), ∀ p ∈ Store.initialBindings,
      ∃ m', evaluate limit (.symbol p.1) Store.root ((Session.new limit).after sources).machine =
        .ok p.2 m' := by
  have hRead : readSource "pi" = .ok [.symbol Constant.pi.symbol] := by
    have hDerives : Derives "pi" [.atom (.word "pi")] := by decide +kernel
    exact readSource_eq_ok_iff.mpr ⟨_, hDerives, rfl⟩
  have hBuiltin : (Constant.pi.symbol, Constant.pi.value.toExpr) ∈ Store.initialBindings :=
    List.mem_append_right _ List.mem_cons_self
  constructor
  · rw [eval_of_readSource hRead]
    rfl
  · intro hAlways
    obtain ⟨m', hValue⟩ := hAlways (-1) [] _ hBuiltin
    cases hValue

end PlotLang
