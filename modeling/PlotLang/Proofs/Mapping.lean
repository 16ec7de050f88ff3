import PlotLang.Proofs.Application
import PlotLang.Proofs.Repeatability

/-! A procedure called with each element of a list. `map` evaluates all elements
before the first call, while calls that are written out take turns with the
evaluation of their arguments, one level deeper. If the arguments define
nothing, no step sees what the others did: evaluation and call leave the scopes
there were as they are, and a store that has only grown makes no difference. So
every argument and every call can be moved to the store at the start, and from
there to wherever the other order has it. -/
namespace PlotLang

namespace Expr

/-- The expression holds no procedure made by `lambda`, not even in a property. -/
def LambdaFree (e : Expr) : Prop := ∀ c, Atom.lambda c ∉ e.atoms

/-- Renaming works atom by atom. -/
theorem mem_atoms_rename {r : Renaming} {e : Expr} {a : Atom} (ha : a ∈ e.atoms) :
    a.rename r ∈ (e.rename r).atoms := by
  induction e using Expr.induct with
  | node e hTail hProperties =>
      rcases mem_atoms.mp ha with rfl | ⟨child, hChild, ha⟩ | ⟨p, hp, ha⟩
      · rw [← head_rename]
        exact head_mem_atoms _
      · refine mem_atoms_of_mem_tail ?_ (hTail child hChild ha)
        rw [tail_rename]
        exact List.mem_map_of_mem hChild
      · refine mem_atoms_of_mem_properties (p := (p.1, p.2.rename r)) ?_ (hProperties p hp ha)
        rw [properties_rename]
        exact List.mem_map_of_mem (f := fun p => (p.1, p.2.rename r)) hp

/-- Renaming makes no procedures. -/
theorem LambdaFree.of_rename {r : Renaming} {e : Expr} (h : (e.rename r).LambdaFree) :
    e.LambdaFree :=
  fun _ hc => h _ (mem_atoms_rename hc)

theorem LambdaFree.element {es : List Expr} (h : (list es).LambdaFree) {e : Expr} (he : e ∈ es) :
    e.LambdaFree :=
  fun c hc => h c (mem_atoms_of_mem_tail he hc)

/-- Only the keyword `define` defines a name; every other form leaves that to its
children. -/
theorem definedNames_eq_nil {x : Symbol} {es : List Expr}
    (hDefine : Keyword.ofSymbol? x ≠ some .define) (h : ∀ e ∈ es, e.definedNames = []) :
    (node (.symbol x) es).definedNames = [] := by
  have hChildren : definedNamesAll es = [] := by
    induction es with
    | nil => rfl
    | cons e es ih =>
        obtain ⟨hFirst, hRest⟩ := List.forall_mem_cons.mp h
        rw [definedNamesAll, hFirst, ih hRest]
        rfl
  rw [node, definedNames]
  split
  · rfl
  · contradiction
  · exact hChildren

/-- The expression is of a store of the given extent and defines no name where
it is evaluated. -/
def Quiet (w : ℕ × ℕ) (e : Expr) : Prop := e.Within w ∧ e.definedNames = []

namespace Quiet
variable {w : ℕ × ℕ}

theorem mono {w' : ℕ × ℕ} (hStage : w ≤ w') {e : Expr} (he : e.Quiet w) : e.Quiet w' :=
  ⟨he.1.mono hStage, he.2⟩

/-- A form that is no definition binds nothing itself, so its parts decide. -/
theorem node {x : Symbol} (hDefine : Keyword.ofSymbol? x ≠ some .define) {es : List Expr}
    (hes : ∀ e ∈ es, e.Quiet w) : (Expr.node (.symbol x) es).Quiet w :=
  ⟨.node (a := .symbol x) trivial fun e he => (hes e he).1,
    definedNames_eq_nil hDefine fun e he => (hes e he).2⟩

/-- A call that defines nothing is quiet if its arguments are. -/
theorem call {f : Symbol} (hName : f.isKeyword = false) {es : List Expr}
    (hes : ∀ e ∈ es, e.Quiet w) : (Expr.call f es).Quiet w := by
  have hKeyword : Keyword.ofSymbol? f = Option.none := by simpa [Symbol.isKeyword] using hName
  exact .node (by simp [hKeyword]) hes

theorem mapForm {f : Symbol} (hName : f.isKeyword = false) {es : List Expr}
    (hes : ∀ e ∈ es, e.Quiet w) : (special .map [.symbol f, .listCall es]).Quiet w := by
  have hSymbol : (Expr.symbol f).Quiet w := call hName (List.forall_mem_nil _)
  refine .node (by decide) ?_
  simpa using ⟨hSymbol, call (by decide) hes⟩

end Quiet

end Expr

/-- A name that means something is looked up in a scope that exists. -/
theorem Store.lt_of_lookup? {st : Store} {s : ScopeId} {x : Symbol} {v : Expr}
    (h : st.lookup? s x = some v) : s < st.scopes.size := by
  by_contra hOld
  have hEmpty := st.scope_of_size_le (Nat.le_of_not_lt hOld)
  simp [lookup?, find?, chain, chainWithin, hEmpty, Table.has] at h

/-- In a closed store a name stands for something that is there. -/
theorem Store.Closed.within_of_lookup? {st : Store} (hStore : st.Closed) {s : ScopeId} {x : Symbol}
    {v : Expr} (h : st.lookup? s x = some v) : v.Within st.extent := by
  obtain ⟨i, hi⟩ := Store.exists_mem_of_lookup? h
  exact hStore.vars i (x, v) hi

/-- Names keep their meaning while a store grows. -/
theorem Store.Grown.lookup? {m m' : Machine} (hGrown : m.store.Grown m'.store)
    (hStore : m.store.Closed) {s : ScopeId} {x : Symbol} {v : Expr}
    (h : m.store.lookup? s x = some v) : m'.store.lookup? s x = some v := by
  obtain ⟨_, _, hMoved, _⟩ := Correspondence.ofShift_of_grown hStore hGrown
  have hLookup := hMoved.lookup? (Renaming.strictMono_scope_shift _ _) hStore.outer s x
  have hSame := (hStore.within_of_lookup? h).rename_shift (m.store.growth m'.store)
  have hScope : (Renaming.shift m.store.extent (m.store.growth m'.store)).scope s = s :=
    shift_of_lt (Store.lt_of_lookup? h) _
  rw [hScope, h, Option.map_some, hSame] at hLookup
  exact hLookup

/-- An evaluation that defines nothing makes a value of a store that has grown. -/
theorem grown_evalAt {c : Ceiling} {d : Int} {m m' : Machine} {e v : Expr} {s : ScopeId}
    (hStore : m.store.Closed) (he : e.Quiet m.store.extent) (hScope : s < m.store.scopes.size)
    (h : evalAt c d e s m = .ok v m') :
    m.store.Grown m'.store ∧ v.Within m'.store.extent := by
  have hEnds : Invariant.closed.Ends m.store.extent (evalAt c d e s m) :=
    Invariant.closed_preserved.evalWithin c _ ⟨he.1, hScope⟩ ⟨rfl, hStore⟩
  have hConfined := evalAt_confined c d m e s
  rw [he.2, h] at hConfined
  rw [h] at hEnds
  cases hEnds with
  | ok hStage hHolds hWithin =>
      obtain ⟨rfl, hAfter⟩ := hHolds
      exact ⟨⟨hStage, fun i hi => hConfined.scope_of_nil hi, hAfter⟩, hWithin⟩

theorem le_levels_of_evalAt {c : Ceiling} {d : Int} {e v : Expr} {s : ScopeId} {m m' : Machine}
    (h : evalAt c d e s m = .ok v m') : d ≤ c.levels := by
  by_contra hDepth
  rw [evalAt_eq_step, if_neg hDepth] at h
  cases h

/-- Evaluates an argument and calls the procedure with its value. The argument
is two levels deeper than the call, as it is in a list. -/
def evalThenApply (c : Ceiling) (d : Int) (proc : Expr) (s : ScopeId) (a : Expr) : EvalM Expr :=
  evalAt c (d + 1 + 1) a s >>= fun v => (Level.under c d).apply proc [v]

/-- A call by name with one argument may take place one level higher up. -/
theorem evalThenApply_of_call {c : Ceiling} {d : Int} {proc a r : Expr} {m m' : Machine}
    {s : ScopeId} {f : Symbol} (hName : f.isKeyword = false)
    (hFound : m.store.lookup? s f = some proc)
    (h : evalAt c (d + 1) (.call f [a]) s m = .ok r m') :
    ∃ m₁, evalThenApply c d proc s a m = .ok r m₁ := by
  rw [evalAt_call hName hFound (by simp) (le_levels_of_evalAt h), List.mapM_cons, bind_assoc] at h
  obtain ⟨v, m₁, hEval, hCall⟩ := EvalM.exists_of_bind h
  simp only [List.mapM_nil, pure_bind] at hCall
  have hHigher := agree_apply c (Int.le_add_one (Int.le_refl d)) proc [v] .always m₁ m₁ rfl
  rw [hCall] at hHigher
  rw [evalThenApply, EvalM.bind_of_ok hEval]
  generalize (Level.under c d).apply proc [v] m₁ = second at hHigher ⊢
  cases hHigher with
  | ok _ _ hSame =>
      obtain ⟨rfl, _⟩ := hSame
      exact ⟨_, congrArg (EStateM.Result.ok · _) (congrFun Expr.rename_refl r)⟩

/-- The argument and the call with its value have the result, which holds no
procedure. -/
def Gives (c : Ceiling) (d : Int) (proc : Expr) (s : ScopeId) (m : Machine) (a r : Expr) : Prop :=
  r.LambdaFree ∧ ∃ m', evalThenApply c d proc s a m = .ok r m'

/-- The call with the value has the result, which holds no procedure. -/
structure Answers (c : Ceiling) (d : Int) (proc : Expr) (m : Machine) (v r : Expr) : Prop where
  within : v.Within m.store.extent
  free : r.LambdaFree
  call : ∃ m', (Level.under c d).apply proc [v] m = .ok r m'

section Elements
variable {c : Ceiling} {d : Int} {proc : Expr} {m m' : Machine} {s : ScopeId}
  (hStore : m.store.Closed) (hProc : proc.Within m.store.extent)
include hStore hProc

/-- A procedure answers the same after other scopes have been made. -/
theorem Answers.mono {v r : Expr} (h : Answers c d proc m v r) (hGrown : m.store.Grown m'.store) :
    Answers c d proc m' v r := by
  obtain ⟨m₁, hCall⟩ := h.call
  refine ⟨h.within.mono hGrown.extent_le, h.free, ?_⟩
  have hArgs : ∀ a ∈ [v], a.Within m.store.extent := by simpa using h.within
  have hResults := results_apply hProc hArgs c d (Correspondence.ofShift_of_grown hStore hGrown)
  rw [hCall] at hResults
  generalize (Level.under c d).apply proc [v] m' = second at hResults ⊢
  cases hResults with
  | ok _ _ hSame =>
      obtain ⟨rfl, _⟩ := hSame
      exact ⟨_, congrArg (EStateM.Result.ok · _) (Expr.rename_shift_of_forall_ne h.free _)⟩

/-- The calls answer one after the other. Each leaves a store that has only
grown, in which the later ones answer as before. -/
theorem mapM_apply_of_answers {values results : List Expr}
    (h : List.Forall₂ (Answers c d proc m) values results) :
    ∃ m', (values.mapM fun v => (Level.under c d).apply proc [v]) m = .ok results m' := by
  induction values generalizing m results with
  | nil =>
      cases h
      exact ⟨m, rfl⟩
  | cons v values ih =>
      cases h with
      | @cons _ r _ results hFirst hRest =>
          obtain ⟨m₁, hCall⟩ := hFirst.call
          have hGrown : m.store.Grown m₁.store := by
            have hArgs : ∀ a ∈ [v], a.Within m.store.extent := by simpa using hFirst.within
            have hAfter := grown_apply hProc hArgs c d hStore
            rwa [hCall] at hAfter
          have hLater : List.Forall₂ (Answers c d proc m₁) values results :=
            hRest.imp fun v r hr => hr.mono hStore hProc hGrown
          obtain ⟨m₂, hCalls⟩ := ih hGrown.closed (hProc.mono hGrown.extent_le) hLater
          refine ⟨m₂, ?_⟩
          rw [List.mapM_cons, EvalM.bind_of_ok hCall, EvalM.bind_of_ok hCalls]
          rfl

variable (hScope : s < m.store.scopes.size) (hGrown : m.store.Grown m'.store)
include hScope hGrown

/-- A store that has grown makes no difference to an argument and its call. -/
theorem gives_iff_of_grown {a r : Expr} (ha : a.Within m.store.extent) :
    Gives c d proc s m a r ↔ Gives c d proc s m' a r := by
  let C := Correspondence.ofShift m.store.extent (m.store.growth m'.store)
  have hC : C.Lawful := Correspondence.ofShift_lawful _ _
  have hLevels (d : Int) : C.Levels (.under c d) (.under c d) :=
    Correspondence.ofShift_levels _ _ c d
  have hSame {e : Expr} (he : e.Within m.store.extent) : e.rename C.names = e := he.rename_shift _
  have hSameScope : C.names.scope s = s := shift_of_lt hScope _
  have hAgree : C.Agree m.store.extent C.Same (evalThenApply c d proc s a)
      (evalThenApply c d proc s a) := by
    have hArgument := hLevels (d + 1) m.store.extent a s ⟨ha, hScope⟩
    rw [hSame ha, hSameScope] at hArgument
    refine hArgument.bind fun w hStage v _ hv => ?_
    obtain ⟨rfl, hv⟩ := hv
    have hArgs : ∀ a ∈ [v], C.admits w a := by simpa using hv
    have hCall := hC.apply (hLevels d) (hProc.mono hStage) hArgs
    rwa [hSame hProc] at hCall
  have hResults := hAgree m m' (Correspondence.ofShift_of_grown hStore hGrown)
  unfold Gives
  generalize evalThenApply c d proc s a m = first at hResults ⊢
  generalize evalThenApply c d proc s a m' = second at hResults ⊢
  refine and_congr_right fun hFree => ?_
  cases hResults with
  | ok _ _ hv =>
      obtain ⟨rfl, _⟩ := hv
      constructor
      · rintro ⟨m₁, h⟩
        cases h
        exact ⟨_, congrArg (EStateM.Result.ok · _) (Expr.rename_shift_of_forall_ne hFree _)⟩
      · rintro ⟨m₁, h⟩
        cases h
        exact ⟨_, congrArg (EStateM.Result.ok · _)
          (Expr.rename_shift_of_forall_ne hFree.of_rename _).symm⟩
  | error _ _ _ => simp
  | excused hExcused => exact hExcused.elim

end Elements

section Orders
variable {c : Ceiling} {d : Int} {proc : Expr} {m m' : Machine} {s : ScopeId}
  {args results : List Expr} (hStore : m.store.Closed) (hProc : proc.Within m.store.extent)
  (hScope : s < m.store.scopes.size) (hGrown : m.store.Grown m'.store)
  (hArgs : ∀ a ∈ args, a.Quiet m.store.extent)
include hStore hProc hScope hGrown hArgs

/-- The arguments come first, and after them every call answers. The induction
is on the arguments, and the machine is any that earlier ones have led to. -/
theorem exists_mapM_evalAt (h : List.Forall₂ (Gives c d proc s m) args results) :
    ∃ values m₁, (args.mapM fun a => evalAt c (d + 1 + 1) a s) m' = .ok values m₁ ∧
      m'.store.Grown m₁.store ∧ List.Forall₂ (Answers c d proc m₁) values results := by
  induction args generalizing m' results with
  | nil =>
      cases h
      exact ⟨[], m', rfl, .refl hGrown.closed, .nil⟩
  | cons a args ih =>
      obtain ⟨ha, hRestArgs⟩ := List.forall_mem_cons.mp hArgs
      cases h with
      | cons hFirst hRest =>
          obtain ⟨hFree, m₂, hHere⟩ :=
            (gives_iff_of_grown hStore hProc hScope hGrown ha.1).mp hFirst
          obtain ⟨v, m₁, hEval, hCall⟩ := EvalM.exists_of_bind hHere
          obtain ⟨hStep, hWithin⟩ := grown_evalAt hGrown.closed (ha.mono hGrown.extent_le)
            (Nat.lt_of_lt_of_le hScope hGrown.extent_le.1) hEval
          have hSoFar := hGrown.trans hStep
          obtain ⟨values, m₃, hEvals, hLater, hAnswers⟩ := ih hSoFar hRestArgs hRest
          have hAnswer : Answers c d proc m₁ v _ := ⟨hWithin, hFree, m₂, hCall⟩
          refine ⟨v :: values, m₃, ?_, hStep.trans hLater, .cons ?_ hAnswers⟩
          · rw [List.mapM_cons, EvalM.bind_of_ok hEval, EvalM.bind_of_ok hEvals]
            rfl
          · exact hAnswer.mono hSoFar.closed (hProc.mono hSoFar.extent_le) hLater

/-- Calls that are written out take turns with their arguments, and each gives
what it would have given at the start. -/
theorem gives_of_mapM_call {f : Symbol} (hName : f.isKeyword = false)
    (hFound : m.store.lookup? s f = some proc) {m'' : Machine}
    (h : (args.mapM fun a => evalAt c (d + 1) (.call f [a]) s) m' = .ok results m'')
    (hFree : ∀ r ∈ results, r.LambdaFree) : List.Forall₂ (Gives c d proc s m) args results := by
  induction args generalizing m' results with
  | nil =>
      cases h
      exact .nil
  | cons a args ih =>
      obtain ⟨ha, hRestArgs⟩ := List.forall_mem_cons.mp hArgs
      rw [List.mapM_cons] at h
      obtain ⟨r, m₁, hFirst, h⟩ := EvalM.exists_of_bind h
      obtain ⟨rest, m₂, hRest, h⟩ := EvalM.exists_of_bind h
      cases h
      obtain ⟨hFreeFirst, hFreeRest⟩ := List.forall_mem_cons.mp hFree
      have hHere : Gives c d proc s m' a r :=
        ⟨hFreeFirst, evalThenApply_of_call hName (hGrown.lookup? hStore hFound) hFirst⟩
      have hBase := (gives_iff_of_grown hStore hProc hScope hGrown ha.1).mpr hHere
      have hCall : (Expr.call f [a]).Quiet m'.store.extent :=
        .call hName (by simpa using ha.mono hGrown.extent_le)
      obtain ⟨hStep, _⟩ := grown_evalAt hGrown.closed hCall
        (Nat.lt_of_lt_of_le hScope hGrown.extent_le.1) hFirst
      exact .cons hBase (ih (hGrown.trans hStep) hRestArgs hRest hFreeRest)

end Orders

section Forms
variable {c : Ceiling} {d : Int} {proc : Expr} {m : Machine} {s : ScopeId} {f : Symbol}
  {args : List Expr} (hStore : m.store.Closed) (hList : m.store.HasList s)
  (hName : f.isKeyword = false) (hFound : m.store.lookup? s f = some proc) (hSome : args ≠ [])
  (hArgs : ∀ a ∈ args, a.Quiet m.store.extent)
include hStore hList hName hFound hSome hArgs

/-- If the list of calls has a value, each call has one, from the same start. -/
theorem gives_of_evalAt_calls {v : Expr} {m₁ : Machine}
    (h : evalAt c d (.listCall (args.map fun a => .call f [a])) s m = .ok v m₁)
    (hFree : v.LambdaFree) :
    ∃ results, v = .list results ∧ List.Forall₂ (Gives c d proc s m) args results := by
  rw [evalAt_listCall hList (by simpa using hSome) (le_levels_of_evalAt h), map_eq_pure_bind] at h
  obtain ⟨results, _, hResults, hPure⟩ := EvalM.exists_of_bind h
  cases hPure
  rw [List.mapM_map] at hResults
  exact ⟨results, rfl, gives_of_mapM_call hStore (hStore.within_of_lookup? hFound)
    (Store.lt_of_lookup? hFound) (.refl hStore) hArgs hName hFound hResults
    fun r hr => hFree.element hr⟩

/-- If each call has a value, so has the form that makes them one after the other. -/
theorem exists_evalAt_mapForm (hProc : proc.isCallable = true) {results : List Expr}
    (h : List.Forall₂ (Gives c d proc s m) args results) :
    ∃ m₂, evalAt c d (.special .map [.symbol f, .listCall args]) s m =
      .ok (.list results) m₂ := by
  have hWithin := hStore.within_of_lookup? hFound
  obtain ⟨values, m', hValues, hGrown, hAnswers⟩ := exists_mapM_evalAt hStore hWithin
    (Store.lt_of_lookup? hFound) (.refl hStore) hArgs h
  obtain ⟨m₂, hMapped⟩ :=
    mapM_apply_of_answers hGrown.closed (hWithin.mono hGrown.extent_le) hAnswers
  -- there is an argument, and it is deeper than the list that holds it
  have hDepth : d + 1 ≤ c.levels := by
    cases h with
    | nil => exact absurd rfl hSome
    | cons hFirst _ =>
        obtain ⟨_, _, hFirst⟩ := hFirst
        obtain ⟨_, _, hEval, _⟩ := EvalM.exists_of_bind hFirst
        have hDeeper := le_levels_of_evalAt hEval
        omega
  refine ⟨m₂, ?_⟩
  rw [evalAt_mapForm hList hSome hName hFound hProc hDepth, EvalM.bind_of_ok hValues,
    map_eq_pure_bind, EvalM.bind_of_ok hMapped]
  rfl

end Forms

/-- A procedure called with each element of a list by `map` gives what the calls
give when they are written out, provided that the arguments define nothing and
that no procedure comes out that could tell one order from the other. In the
stores that come up, all values are of the store itself, and so is every form. -/
theorem map_eq_calls :
    (∀ session : Session, session.Reached → session.machine.store.Closed ∧
      ∀ e : Expr, e.IsForm → e.Within session.machine.store.extent) ∧
    ∀ (c : Ceiling) (d : Int) (m m₁ : Machine) (s : ScopeId) (f : Symbol) (proc v : Expr)
      (args : List Expr), m.store.Closed → m.store.HasList s → f.isKeyword = false →
      m.store.lookup? s f = some proc → proc.isCallable = true → args ≠ [] →
      (∀ a ∈ args, a.Within m.store.extent ∧ a.definedNames = []) →
      evalAt c d (.listCall (args.map fun a => .call f [a])) s m = .ok v m₁ → v.LambdaFree →
      ∃ m₂, evalAt c d (.special .map [.symbol f, .listCall args]) s m = .ok v m₂ ∧
        ∀ i < m.store.scopes.size, m₁.store.scope i = m.store.scope i ∧
          m₂.store.scope i = m.store.scope i := by
  refine ⟨fun session h => ⟨h.closed, fun e he => .of_isForm he _⟩, ?_⟩
  intro c d m m₁ s f proc v args hStore hList hName hFound hProc hSome hArgs hCalls hFree
  have hScope := Store.lt_of_lookup? hFound
  obtain ⟨results, rfl, hGives⟩ :=
    gives_of_evalAt_calls hStore hList hName hFound hSome hArgs hCalls hFree
  obtain ⟨m₂, hMap⟩ := exists_evalAt_mapForm hStore hList hName hFound hSome hArgs hProc hGives
  have hQuiet : (Expr.listCall (args.map fun a => .call f [a])).Quiet m.store.extent :=
    .call (by decide) <| List.forall_mem_map.mpr fun a ha =>
      .call hName (List.forall_mem_singleton.mpr (hArgs a ha))
  obtain ⟨hGrown₁, _⟩ := grown_evalAt hStore hQuiet hScope hCalls
  obtain ⟨hGrown₂, _⟩ := grown_evalAt hStore (.mapForm hName hArgs) hScope hMap
  exact ⟨m₂, hMap, fun i hi => ⟨hGrown₁.scope i hi, hGrown₂.scope i hi⟩⟩

/-- The element is a procedure, which is made for the call and called in turn. -/
theorem map_eq_calls_procedure :
    let f : Symbol := ⟨"f", by decide⟩
    let x : Symbol := ⟨"x", by decide⟩
    let proc := Expr.lambda ⟨0, [x], 0⟩ (.call x [.string "a"])
    let st := ({ Store.empty with closures := 1 } : Store).bind 0 Builtin.list.symbol
      (.leaf (.procedure .list))
    let m : Machine := { store := st.bind 0 f proc }
    let identity := Expr.special .lambda [.symbol x, .symbol x]
    ∃ m₁ m₂,
      evalAt (.exact 3) 0 (.listCall [.call f [identity]]) 0 m = .ok (.list [.string "a"]) m₁ ∧
      evalAt (.exact 3) 0 (.special .map [.symbol f, .listCall [identity]]) 0 m =
        .ok (.list [.string "a"]) m₂ := by
  intro f x proc st m identity
  have hBody : (Expr.call x [.string "a"]).Within st.extent :=
    .node (a := .symbol x) trivial (by simpa using .datum rfl)
  have hProc : proc.Within st.extent :=
    .node (a := .lambda _) ⟨by decide, by decide⟩ (by simpa using hBody)
  have hStore : m.store.Closed := ((Store.Closed.empty 1).bind 0 _ (.datum rfl)).bind 0 f hProc
  have hIdentity : identity.Within m.store.extent :=
    .node (a := .symbol _) trivial (by simpa using .leaf (a := .symbol x) trivial)
  obtain ⟨m₁, hCalls⟩ : ∃ m₁, evalAt (.exact 3) 0 (.listCall [.call f [identity]]) 0 m =
      .ok (.list [.string "a"]) m₁ := by
    simp only [m, st, proc, identity, f, x]
    exact ⟨_, rfl⟩
  have hFree : (Expr.list [.string "a"]).LambdaFree := by
    intro c hc
    have hAtoms : (Expr.list [.string "a"]).atoms = [.list, .string "a"] := rfl
    simp [hAtoms] at hc
  obtain ⟨m₂, hMap, _⟩ := map_eq_calls.2 (.exact 3) 0 m m₁ 0 f proc _ [identity] hStore rfl
    (by decide) rfl rfl (by simp) (by simpa using ⟨hIdentity, by decide⟩) hCalls hFree
  exact ⟨m₁, m₂, hCalls, hMap⟩

end PlotLang
