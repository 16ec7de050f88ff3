import PlotLang.Proofs.Source.Recognition
import PlotLang.Proofs.Value
import PlotLang.Session

/-! Sessions, from the initial store through any number of source texts. A text
that fails leaves the machine in which the failure arose, and the session goes
on from there. -/
namespace PlotLang

open EStateM (Result)

namespace Store
variable (st : Store) (s : ScopeId) (x : Symbol) (v : Expr)

@[simp] theorem size_register : (st.register s x v).scopes.size = st.scopes.size := by
  simp [register]

@[simp] theorem closures_register : (st.register s x v).closures = st.closures := rfl

/-- Registering a name protects it, which shows neither in the variables of a
scope nor in the scope around it. -/
theorem scope_register (i : ScopeId) :
    ((st.register s x v).scope i).vars = ((st.bind (st.rootOf s) x v).scope i).vars ∧
      ((st.register s x v).scope i).outer = ((st.bind (st.rootOf s) x v).scope i).outer := by
  simp only [register, scope, Array.getElem?_modify]
  split
  · cases (st.bind (st.rootOf s) x v).scopes[i]? with
    | none => exact ⟨rfl, rfl⟩
    | some sc =>
        simp only [Option.map_some, Option.getD_some]
        split <;> exact ⟨rfl, rfl⟩
  · exact ⟨rfl, rfl⟩

/-- After registering a scope holds the new value and what it held before. -/
theorem mem_vars_register {i : ScopeId} {p : Symbol × Expr}
    (h : p ∈ ((st.register s x v).scope i).vars) : p = (x, v) ∨ p ∈ (st.scope i).vars := by
  rw [(st.scope_register s x v i).1] at h
  exact st.mem_vars_bind h

/-- Registering never moves a scope. -/
theorem outer_register (i : ScopeId) :
    ((st.register s x v).scope i).outer = (st.scope i).outer := by
  rw [(st.scope_register s x v i).2, st.outer_bind]

def initialBindings : List (Symbol × Expr) :=
  (Builtin.all.map fun b => (b.symbol, Expr.leaf (.procedure b))) ++
    Constant.all.map fun c => (c.symbol, c.value.toExpr)

/-- The store that registration of some names has led to. The induction is on
the names. -/
theorem foldl_register (bindings : List (Symbol × Expr)) (st : Store) :
    let after := bindings.foldl (fun st (x, v) => st.register root x v) st
    after.scopes.size = st.scopes.size ∧ after.closures = st.closures ∧
      ∀ i, (after.scope i).outer = (st.scope i).outer ∧
        ∀ p ∈ (after.scope i).vars, p ∈ bindings ∨ p ∈ (st.scope i).vars := by
  induction bindings generalizing st with
  | nil => exact ⟨rfl, rfl, fun i => ⟨rfl, fun p hp => .inr hp⟩⟩
  | cons binding bindings ih =>
      obtain ⟨x, v⟩ := binding
      obtain ⟨hSize, hClosures, hScopes⟩ := ih (st.register root x v)
      refine ⟨hSize.trans (st.size_register root x v), hClosures, fun i => ?_⟩
      obtain ⟨hOuter, hVars⟩ := hScopes i
      refine ⟨hOuter.trans (st.outer_register root x v i), fun p hp => ?_⟩
      rcases hVars p hp with hLater | hEarlier
      · exact .inl (List.mem_cons_of_mem _ hLater)
      · rcases st.mem_vars_register root x v hEarlier with rfl | hOld
        · exact .inl List.mem_cons_self
        · exact .inr hOld

theorem scope_empty (i : ScopeId) : empty.scope i = {} := by
  cases i with
  | zero => rfl
  | succ i => exact empty.scope_of_size_le (Nat.succ_le_succ (Nat.zero_le i))

/-- The initial store is one scope, which binds data only. -/
theorem initial_spec :
    initial.scopes.size = 1 ∧ initial.closures = 0 ∧
      ∀ i, (initial.scope i).outer = none ∧
        ∀ p ∈ (initial.scope i).vars, ∃ a : Atom, a.isDatum = true ∧ p.2 = Expr.leaf a := by
  obtain ⟨hSize, hClosures, hScopes⟩ := foldl_register initialBindings empty
  refine ⟨hSize, hClosures, fun i => ?_⟩
  obtain ⟨hOuter, hVars⟩ := hScopes i
  rw [scope_empty] at hOuter hVars
  refine ⟨hOuter, fun p hp => ?_⟩
  have hMember : p ∈ initialBindings := (hVars p hp).resolve_right (by simp)
  rcases List.mem_append.mp hMember with hProcedure | hConstant
  · obtain ⟨b, _, rfl⟩ := List.mem_map.mp hProcedure
    exact ⟨.procedure b, rfl, rfl⟩
  · obtain ⟨c, _, rfl⟩ := List.mem_map.mp hConstant
    refine ⟨c.value.toAtom, ?_, rfl⟩
    cases c <;> rfl

/-- In the beginning there is only the root. -/
theorem scope_initial_of_ne {i : ScopeId} (h : i ≠ root) : initial.scope i = {} := by
  apply scope_of_size_le
  rw [initial_spec.1]
  exact Nat.pos_of_ne_zero h

end Store

/-- The sessions that can come up. -/
inductive Session.Reached : Session → Prop where
  | new (limit : Int) : Reached (.new limit)
  | eval {session : Session} (h : Reached session) (source : String) :
      Reached (session.eval source).2
  | reset {session : Session} (h : Reached session) : Reached session.reset

/-- The session after further texts, whether they have a value or fail. -/
def Session.after (session : Session) (sources : List String) : Session :=
  sources.foldl (fun session source => (session.eval source).2) session

namespace Invariant
variable {Stage : Type} [Preorder Stage] {I : Invariant Stage}

/-- The forms of a text are evaluated one by one until one fails or the text
ends. The induction is on the tokens that are left. -/
theorem Preserved.evalStream (hI : I.Preserved) {w : Stage} {limit : Int} {s : ScopeId}
    {stream : TokenStream} {last : Expr} {m : Machine}
    (hForms : ∀ w' ≥ w, ∀ e ∈ stream.readForms.1, I.runs w' e s) (hLast : I.admits w last)
    (hHolds : I.holds w m) : I.Ends w (PlotLang.evalStream limit s stream last m) := by
  fun_induction PlotLang.evalStream limit s stream last m generalizing w with
  | case1 stream last m e rest hParse => exact .error le_rfl hHolds
  | case2 stream last m rest hParse => exact .ok le_rfl hHolds hLast
  | case3 stream last m form rest hParse e m' hEval =>
      rw [TokenStream.readForms_of_parse hParse] at hForms
      have hEnds : I.Ends w (evaluate limit form s m) :=
        hI.evalWithin _ _ (hForms w le_rfl form List.mem_cons_self) hHolds
      rw [hEval] at hEnds
      cases hEnds with
      | error hStage hHolds' => exact .error hStage hHolds'
  | case4 stream last m form rest hParse v m' hEval ih =>
      rw [TokenStream.readForms_of_parse hParse] at hForms
      have hEnds : I.Ends w (evaluate limit form s m) :=
        hI.evalWithin _ _ (hForms w le_rfl form List.mem_cons_self) hHolds
      rw [hEval] at hEnds
      cases hEnds with
      | ok hStage hHolds' hAdmits =>
          refine (ih (fun w' h' e he => ?_) hAdmits hHolds').later hStage
          exact hForms w' (hStage.trans h') e (List.mem_cons_of_mem form he)

/-- A text keeps what its own forms keep. -/
theorem Preserved.eval_of_forms (hI : I.Preserved) {w : Stage} {session : Session} {source : String}
    (hForms : ∀ w' ≥ w, ∀ e ∈ (TokenStream.ofSource source).readForms.1, I.runs w' e Store.root)
    (hHolds : I.holds w session.machine) :
    ∃ w' ≥ w, I.holds w' (session.eval source).2.machine ∧
      ∀ v, (session.eval source).1 = .ok v → I.admits w' v := by
  have hEnds : I.Ends w (PlotLang.evalStream session.limit Store.root (.ofSource source) Expr.none
      session.machine) :=
    hI.evalStream hForms (hI.admits_none w) hHolds
  unfold Session.eval
  generalize PlotLang.evalStream session.limit Store.root (.ofSource source) Expr.none
    session.machine = outcome at hEnds ⊢
  cases hEnds with
  | ok hStage hHolds' hAdmits =>
      refine ⟨_, hStage, hHolds', fun v hv => ?_⟩
      cases hv
      exact hAdmits
  | error hStage hHolds' => exact ⟨_, hStage, hHolds', fun v hv => by cases hv⟩

/-- A text keeps the invariant, whatever its forms do and wherever it fails. Its
value is admitted if there is one. -/
theorem Preserved.eval (hI : I.Preserved) {w : Stage} {session : Session}
    (hForms : ∀ w' ≥ w, ∀ e, e.IsForm → I.runs w' e Store.root)
    (hHolds : I.holds w session.machine) (source : String) :
    ∃ w' ≥ w, I.holds w' (session.eval source).2.machine ∧
      ∀ v, (session.eval source).1 = .ok v → I.admits w' v :=
  hI.eval_of_forms (fun w' h' e he => hForms w' h' e (TokenStream.isForm_of_readForms _ e he)) hHolds

/-- Texts one after the other keep the invariant. -/
theorem Preserved.after (hI : I.Preserved) {w : Stage} {session : Session}
    (hForms : ∀ w' ≥ w, ∀ e, e.IsForm → I.runs w' e Store.root)
    (hHolds : I.holds w session.machine) (sources : List String) :
    ∃ w' ≥ w, I.holds w' (session.after sources).machine := by
  induction sources generalizing w session with
  | nil => exact ⟨w, le_rfl, hHolds⟩
  | cons source sources ih =>
      obtain ⟨w₁, h₁, hNext, _⟩ := hI.eval hForms hHolds source
      obtain ⟨w₂, h₂, hLast⟩ := ih (fun w' h' => hForms w' (h₁.trans h')) hNext
      exact ⟨w₂, h₁.trans h₂, hLast⟩

theorem Preserved.after_new (hI : I.Preserved) {w₀ : Stage}
    (hInitial : I.holds w₀ { store := Store.initial })
    (hForms : ∀ w ≥ w₀, ∀ e, e.IsForm → I.runs w e Store.root) (limit : Int)
    (sources : List String) : ∃ w ≥ w₀, I.holds w ((Session.new limit).after sources).machine := by
  have hNew : I.holds w₀ (Session.new limit).machine := hInitial
  exact hI.after hForms hNew sources

/-- What holds of the initial store holds of every session, whatever was
evaluated in it before. -/
theorem Preserved.reached (hI : I.Preserved) {w₀ : Stage}
    (hInitial : ∀ log, I.holds w₀ { store := Store.initial, log })
    (hForms : ∀ w ≥ w₀, ∀ e, e.IsForm → I.runs w e Store.root) {session : Session}
    (h : session.Reached) : ∃ w ≥ w₀, I.holds w session.machine := by
  induction h with
  | new limit => exact ⟨w₀, le_rfl, hInitial #[]⟩
  | @eval session _ source ih =>
      obtain ⟨w, hStage, hHolds⟩ := ih
      obtain ⟨w', hLater, hAfter, _⟩ :=
        hI.eval (fun w' h' => hForms w' (hStage.trans h')) hHolds source
      exact ⟨w', hStage.trans hLater, hAfter⟩
  | reset _ _ => exact ⟨w₀, le_rfl, hInitial _⟩

end Invariant

/-- In every session, whatever texts it has evaluated and however they ended,
all values that it returns or binds are well-formed, and evaluating one of them
again changes nothing. -/
theorem Session.Reached.values_wellFormed {session : Session} (h : session.Reached) :
    (∀ (source : String) (v : Expr), (session.eval source).1 = .ok v → v.WellFormed) ∧
    (∀ (i : ScopeId), ∀ p ∈ (session.machine.store.scope i).vars, p.2.WellFormed) ∧
    ∀ v : Expr, v.WellFormed → ∀ (limit : Int) (s : ScopeId) (m : Machine), 0 ≤ limit →
      evaluate limit v s m = .ok v m := by
  have hInitial : Store.initial.WellFormed := by
    intro i p hp
    obtain ⟨a, ha, hValue⟩ := (Store.initial_spec.2.2 i).2 p hp
    rw [hValue]
    exact .leaf ha
  obtain ⟨_, _, hStore⟩ : ∃ w ≥ Timeless.always, Invariant.wellFormed.holds w session.machine :=
    Invariant.wellFormed_preserved.reached (fun _ => hInitial) (fun _ _ _ he => he) h
  refine ⟨fun source v hv => ?_, hStore, fun v hv limit s m hLimit => hv.evaluate hLimit s m⟩
  obtain ⟨_, _, _, hReturned⟩ :=
    Invariant.wellFormed_preserved.eval (w := .always) (fun _ _ _ he => he) hStore source
  exact hReturned v hv

/-- A session that has bound a procedure, and a point evaluated in it. -/
theorem Session.values_wellFormed_lambda :
    let session := ((Session.new 200).eval "(define f (lambda (x y) (make-point x y)))").2
    (∀ p ∈ (session.machine.store.scope Store.root).vars, p.2.WellFormed) ∧
      evaluate 0 (.point 1.0 2.0) Store.root session.machine =
        .ok (.point 1.0 2.0) session.machine := by
  intro session
  obtain ⟨_, hBound, hFixed⟩ := Session.Reached.values_wellFormed
    (.eval (.new 200) "(define f (lambda (x y) (make-point x y)))")
  have hPoint := Expr.wellFormed_constructive.point (w := Timeless.always) 1.0 2.0
  exact ⟨hBound Store.root, hFixed _ hPoint 0 Store.root _ (Int.le_refl 0)⟩

end PlotLang
