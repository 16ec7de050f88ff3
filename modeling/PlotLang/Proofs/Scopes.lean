import Mathlib.Data.List.Chain
import PlotLang.Proofs.Closed
import PlotLang.Proofs.Reading

/-! Scopes and the calls that opened them. The log has a record of every call, and
the records account for the whole store: its scopes are the root and one scope
for each call, in the order of the calls. The scope around the scope of a call is
the one that the procedure was made in, and it stays so. That scope is older, so
the way outward ends, and it ends at the root. -/
namespace PlotLang

/-- A call as the log has it: the procedure, the address of the scope that was
opened for it, and this scope when the body started. -/
structure Call where
  closure : Closure
  address : ScopeId
  started : Scope

def LogRecord.call? : LogRecord → Option Call
  | .called closure _ address started => some { closure, address, started }
  | _ => none

namespace Machine
variable (m : Machine)

def calls : List Call := m.log.toList.filterMap LogRecord.call?

/-- Records of other kinds say nothing about calls. -/
theorem calls_logged {r : LogRecord} (hr : r.isCall = false) : (m.logged r).calls = m.calls := by
  cases r with
  | called => cases hr
  | _ => simp [calls, logged, LogRecord.call?]

@[simp] theorem calls_defined (s : ScopeId) (x : Symbol) (v : Expr) :
    (m.defined s x v).calls = m.calls := by
  simp [calls, defined, LogRecord.call?]

@[simp] theorem calls_minted : m.minted.calls = m.calls := rfl

/-- A call is logged with the scope that it makes. -/
@[simp] theorem calls_called (d : Int) (c : Closure) (args : List Expr) :
    (m.called d c args).calls = m.calls ++ [⟨c, m.store.scopes.size, .ofCall c args⟩] := by
  simp [calls, called, LogRecord.call?]

/-- A call opens one scope, which binds the parameters and nothing else, and
leaves a record of it. -/
theorem called_opens (d : Int) {c : Closure} {args : List Expr} (hFormals : c.formals.Nodup)
    (hArity : args.length = c.formals.length) :
    let s := m.store.scopes.size
    let m' := m.called d c args
    m'.store.scope s = { vars := c.formals.zip args, outer := some c.scope } ∧
      (∀ i < s, m'.store.scope i = m.store.scope i) ∧
      m'.calls = m.calls ++ [⟨c, s, m'.store.scope s⟩] := by
  intro s m'
  have hScope : m'.store.scope s = .ofCall c args := m.scope_called_self d c args
  rw [hScope]
  exact ⟨Scope.ofCall_eq hFormals hArity,
    fun i hi => m.scope_called_of_ne (Nat.ne_of_lt hi) d c args, m.calls_called d c args⟩

end Machine

/-- The record of a call is right: the procedure has distinct parameters, and its
body started in a scope that binds them to arguments and nothing else, inside the
scope that the procedure was made in. -/
structure Call.Sound (call : Call) : Prop where
  formals : call.closure.formals.Nodup
  started : ∃ args : List Expr, args.length = call.closure.formals.length ∧
    call.started = { vars := call.closure.formals.zip args, outer := some call.closure.scope }

/-- The calls in the log account for the scopes of the store. Besides the root
there is one scope for each call, and no two calls share one. -/
structure Machine.Recorded (m : Machine) : Prop where
  size : m.store.scopes.size = m.calls.length + 1
  addresses : m.calls.map Call.address = List.range' 1 m.calls.length
  sound : ∀ call ∈ m.calls, call.Sound
  root : (m.store.scope Store.root).outer = none
  outer : ∀ call ∈ m.calls, (m.store.scope call.address).outer = some call.closure.scope
  reserved : ∀ i, i ≠ Store.root → (m.store.scope i).reserved = []

namespace Machine.Recorded
variable {m : Machine}

/-- Only a call adds to the account, so all else that happens may change the
variables of scopes and nothing more. -/
theorem of_same {m' : Machine} (h : m.Recorded) (hCalls : m'.calls = m.calls)
    (hSize : m'.store.scopes.size = m.store.scopes.size)
    (hOuter : ∀ i, (m'.store.scope i).outer = (m.store.scope i).outer)
    (hReserved : ∀ i, (m'.store.scope i).reserved = (m.store.scope i).reserved) : m'.Recorded where
  size := by rw [hCalls, hSize, h.size]
  addresses := by rw [hCalls, h.addresses]
  sound := by
    rw [hCalls]
    exact h.sound
  root := by rw [hOuter, h.root]
  outer := by
    rw [hCalls]
    intro call hCall
    rw [hOuter, h.outer call hCall]
  reserved := by
    intro i hi
    rw [hReserved, h.reserved i hi]

theorem root_ne_size (h : m.Recorded) : Store.root ≠ m.store.scopes.size := by
  rw [h.size]
  exact Nat.ne_of_lt (Nat.succ_pos _)

theorem address_lt_size (h : m.Recorded) {call : Call} (hCall : call ∈ m.calls) :
    call.address < m.store.scopes.size := by
  have hAddress : call.address ∈ m.calls.map Call.address := List.mem_map_of_mem hCall
  rw [h.addresses, List.mem_range'_1] at hAddress
  rw [h.size, Nat.add_comm]
  exact hAddress.2

/-- Every scope but the root was made by a call that is on record. -/
theorem exists_call (h : m.Recorded) {i : ScopeId} (hScope : i < m.store.scopes.size)
    (hi : i ≠ Store.root) : ∃ call ∈ m.calls, call.address = i := by
  rw [h.size, Nat.add_comm] at hScope
  have hAddress : i ∈ m.calls.map Call.address := by
    rw [h.addresses, List.mem_range'_1]
    exact ⟨Nat.pos_of_ne_zero hi, hScope⟩
  exact List.mem_map.mp hAddress

/-- The scope of a call is new, and its outer scope is the one that the procedure
captured. -/
theorem called (h : m.Recorded) (d : Int) {c : Closure} {args : List Expr}
    (hFormals : c.formals.Nodup) (hArity : args.length = c.formals.length) :
    (m.called d c args).Recorded where
  size := by
    rw [calls_called, List.length_append, Machine.called, Store.size_extend, h.size]
    rfl
  addresses := by
    rw [calls_called, List.map_append, h.addresses, List.length_append, List.length_singleton,
      List.range'_concat, h.size]
    simp [Nat.add_comm]
  sound := by
    intro call hCall
    rw [calls_called] at hCall
    rcases List.mem_append.mp hCall with hOld | hNew
    · exact h.sound call hOld
    · rw [List.mem_singleton.mp hNew]
      exact ⟨hFormals, args, hArity, Scope.ofCall_eq hFormals hArity⟩
  root := by rw [m.scope_called_of_ne h.root_ne_size, h.root]
  outer := by
    intro call hCall
    rw [calls_called] at hCall
    rcases List.mem_append.mp hCall with hOld | hNew
    · rw [m.scope_called_of_ne (Nat.ne_of_lt (h.address_lt_size hOld)), h.outer call hOld]
    · rw [List.mem_singleton.mp hNew, m.scope_called_self]
      rfl
  reserved := by
    intro i hi
    by_cases hNew : i = m.store.scopes.size
    · rw [hNew, m.scope_called_self]
      rfl
    · rw [m.scope_called_of_ne hNew, h.reserved i hi]

/-- Before any text is read there is the root and no call. -/
theorem initial : ({ store := Store.initial } : Machine).Recorded where
  size := Store.initial_spec.1
  addresses := rfl
  sound := fun call hCall => by cases hCall
  root := (Store.initial_spec.2.2 Store.root).1
  outer := fun call hCall => by cases hCall
  reserved := by
    intro i hi
    rw [Store.scope_initial_of_ne hi]

end Machine.Recorded

namespace Invariant

/-- What is called is a value, so its parameters are distinct. -/
theorem keeps_recorded : (closed.both wellFormed).Keeps Machine.Recorded where
  logged := by
    intro w m r _ hRecorded hr
    exact hRecorded.of_same (m.calls_logged hr) rfl (fun _ => rfl) fun _ => rfl
  defined := by
    intro w e s x v m _ _ _ hRecorded _
    exact hRecorded.of_same (m.calls_defined s x v) (m.store.size_bind s x v)
      (m.store.outer_bind s x v) (m.store.reserved_bind s x v)
  minted := by
    intro w m _ hRecorded
    exact hRecorded.of_same m.calls_minted rfl (fun _ => rfl) fun _ => rfl
  called := by
    intro w proc c args m d hProc hHead hArity _ hRecorded
    exact hRecorded.called d (hProc.2.closure hHead).2.1 hArity

/-- Values refer to scopes that exist, and each of these is accounted for. -/
def recorded : Invariant ((ℕ × ℕ) × Timeless) := (closed.both wellFormed).along Machine.Recorded

theorem recorded_preserved : recorded.Preserved :=
  (closed_preserved.both wellFormed_preserved).along keeps_recorded

theorem recorded_holds_initial :
    recorded.holds ((1, 0), .always) { store := Store.initial } := by
  have hWellFormed : Store.initial.WellFormed := by
    intro i p hp
    obtain ⟨a, ha, hValue⟩ := (Store.initial_spec.2.2 i).2 p hp
    rw [hValue]
    exact .leaf ha
  exact ⟨⟨closed_holds_initial #[], hWellFormed⟩, .initial⟩

theorem recorded_runs_root {w : (ℕ × ℕ) × Timeless} (hStage : ((1, 0), .always) ≤ w) {e : Expr}
    (he : e.IsForm) : recorded.runs w e Store.root :=
  ⟨closed_runs_root hStage.1 he, he⟩

end Invariant

/-- The scopes form one tree. From each of them the way outward is finite and
complete, and it ends at the root, which alone has no scope around it. -/
structure Store.Rooted (st : Store) : Prop where
  chain : ∀ i < st.scopes.size, (st.chain i).head? = some i ∧
    (st.chain i).IsChain (fun s o => (st.scope s).outer = some o) ∧
    (st.chain i).getLast? = some root
  outer_eq_none : ∀ i < st.scopes.size, (st.scope i).outer = none ↔ i = root

/-- The scope around a scope is older, and the induction is on how many scopes
there can be on the way outward. -/
theorem Store.chainWithin_spec {st : Store}
    (hRoot : ∀ i < st.scopes.size, (st.scope i).outer = none ↔ i = root)
    (hOuter : ∀ i o, (st.scope i).outer = some o → o < i) {n : Nat} {i : ScopeId} (hn : i < n)
    (hi : i < st.scopes.size) :
    (st.chainWithin n i).head? = some i ∧
      (st.chainWithin n i).IsChain (fun s o => (st.scope s).outer = some o) ∧
      (st.chainWithin n i).getLast? = some root := by
  induction n generalizing i with
  | zero => cases hn
  | succ n ih =>
      cases hLink : (st.scope i).outer with
      | none =>
          simp only [chainWithin, hLink]
          rw [(hRoot i hi).mp hLink]
          exact ⟨rfl, .singleton _, rfl⟩
      | some o =>
          have hOlder := hOuter i o hLink
          obtain ⟨hHead, hChain, hLast⟩ :=
            ih (Nat.lt_of_lt_of_le hOlder (Nat.le_of_lt_succ hn)) (hOlder.trans hi)
          simp only [chainWithin, hLink]
          refine ⟨rfl, ?_, ?_⟩
          · rw [List.isChain_cons]
            refine ⟨?_, hChain⟩
            intro s hs
            rw [hHead] at hs
            cases hs
            exact hLink
          · rw [List.getLast?_cons, hLast]
            rfl

/-- Outer scopes are older than the scopes in them, so every way outwards ends at
the root. -/
theorem Machine.Recorded.rooted {m : Machine} (h : m.Recorded) (hClosed : m.store.Closed) :
    m.store.Rooted := by
  have hRoot (i : ScopeId) (hi : i < m.store.scopes.size) :
      (m.store.scope i).outer = none ↔ i = Store.root := by
    constructor
    · intro hNone
      by_contra hInner
      obtain ⟨call, hCall, rfl⟩ := h.exists_call hi hInner
      rw [h.outer call hCall] at hNone
      cases hNone
    · rintro rfl
      exact h.root
  exact ⟨fun i hi => Store.chainWithin_spec hRoot hClosed.outer (Nat.lt_succ_self i) hi, hRoot⟩

/-- All scopes lie in the one root. -/
theorem Store.Rooted.rootOf {st : Store} (h : st.Rooted) {i : ScopeId} (hi : i < st.scopes.size) :
    st.rootOf i = root := by
  rw [Store.rootOf, (h.chain i hi).2.2]
  rfl

/-- Forms hold no procedures, so a procedure anywhere in a value is a value. -/
theorem Expr.WellFormed.formalsValid {v : Expr} (hv : v.WellFormed) {c : Closure}
    (hc : .lambda c ∈ v.atoms) : FormalsValid c.formals := by
  induction hv with
  | @intro e hDatum hSymbol _ hClosure _ _ _ ihChildren ihProperties =>
      rcases mem_atoms.mp hc with hHead | ⟨child, hChild, hc⟩ | ⟨p, hp, hc⟩
      · exact (hClosure c hHead.symm).2
      · cases hHead : e.head with
        | symbol x => exact absurd hHead (hSymbol x)
        | list => exact ihChildren (.inl (by simp [isList, hHead])) child hChild hc
        | discrete name => exact ihChildren (.inr (by simp [isPlot, hHead])) child hChild hc
        | lambda c' =>
            obtain ⟨⟨body, hTail, hBody⟩, _⟩ := hClosure c' hHead
            rw [hTail, List.mem_singleton] at hChild
            have hWithin : (Atom.lambda c).Within (0, 0) :=
              Expr.Within.of_isForm hBody (0, 0) _ (hChild ▸ hc)
            exact absurd hWithin.1 (Nat.not_lt_zero _)
        | none | number x | complex z | string t | procedure b =>
            have hLeaf : e.tail = [] := hDatum (by rw [hHead]; rfl)
            rw [hLeaf] at hChild
            cases hChild
      · exact ihProperties p hp hc

/-- All procedures in a value, at any place in it, have distinct parameters and
were made in one of the first scopes, as many as given. -/
def Expr.Captures (v : Expr) (scopes : Nat) : Prop :=
  ∀ c : Closure, .lambda c ∈ v.atoms → c.scope < scopes ∧ c.formals.Nodup

/-- A procedure has captured a scope that is there. -/
theorem Expr.Captures.of_admits {w : (ℕ × ℕ) × Timeless} {v : Expr}
    (hv : Invariant.recorded.admits w v) {scopes : Nat} (hScopes : w.1.1 ≤ scopes) :
    v.Captures scopes := by
  intro c hc
  exact ⟨lt_of_lt_of_le (hv.1 _ hc).1 hScopes, (hv.2.formalsValid hc).1⟩

/-- A scope keeps the scope around it. -/
theorem Invariant.keeps_outer {Stage : Type} [Preorder Stage] (I : Invariant Stage) (st : Store) :
    I.Keeps fun m => st.scopes.size ≤ m.store.scopes.size ∧
      ∀ i < st.scopes.size, (m.store.scope i).outer = (st.scope i).outer where
  logged := fun _ hKept _ => hKept
  defined := by
    intro w e s x v m _ _ _ hKept _
    refine ⟨?_, fun i hi => ?_⟩
    · rw [Machine.defined, m.store.size_bind]
      exact hKept.1
    · rw [Machine.defined, m.store.outer_bind]
      exact hKept.2 i hi
  minted := fun _ hKept => hKept
  called := by
    intro w proc c args m d _ _ _ _ hKept
    refine ⟨?_, fun i hi => ?_⟩
    · rw [Machine.called, Store.size_extend]
      exact Nat.le_succ_of_le hKept.1
    · rw [m.scope_called_of_ne (Nat.ne_of_lt (Nat.lt_of_lt_of_le hi hKept.1))]
      exact hKept.2 i hi

/-- What holds of the scopes of a session, now and after any further texts. -/
structure Session.Scoped (session : Session) : Prop where
  rooted : session.machine.store.Rooted
  recorded : session.machine.Recorded
  bound : ∀ i, ∀ p ∈ (session.machine.store.scope i).vars,
    p.2.Captures session.machine.store.scopes.size
  returned : ∀ source v, (session.eval source).1 = .ok v →
    ∀ later, v.Captures (session.after (source :: later)).machine.store.scopes.size
  kept : ∀ later, ∀ i < session.machine.store.scopes.size,
    i < (session.after later).machine.store.scopes.size ∧
    ((session.after later).machine.store.scope i).outer =
      (session.machine.store.scope i).outer

/-- What is said of sessions is read off the invariant that holds at their ends. -/
theorem Session.Scoped.of_holds {session : Session} {w : (ℕ × ℕ) × Timeless}
    (hStage : ((1, 0), .always) ≤ w) (hHolds : Invariant.recorded.holds w session.machine) :
    session.Scoped := by
  have hForms (w' : (ℕ × ℕ) × Timeless) (hLater : w ≤ w') (e : Expr) (he : e.IsForm) :
      Invariant.recorded.runs w' e Store.root :=
    Invariant.recorded_runs_root (hStage.trans hLater) he
  have hClosed : session.machine.store.Closed := hHolds.1.1.2
  have hWellFormed : session.machine.store.WellFormed := hHolds.1.2
  refine ⟨hHolds.2.rooted hClosed, hHolds.2, ?_, ?_, ?_⟩
  · intro i p hp
    have hValue : Invariant.recorded.admits (session.machine.store.extent, .always) p.2 :=
      ⟨hClosed.vars i p hp, hWellFormed i p hp⟩
    exact .of_admits hValue le_rfl
  · intro source v hv later
    obtain ⟨w₁, h₁, hNext, hReturned⟩ := Invariant.recorded_preserved.eval hForms hHolds source
    obtain ⟨w₂, h₂, hLast⟩ := Invariant.recorded_preserved.after
      (fun w' h' => hForms w' (h₁.trans h')) hNext later
    refine .of_admits (hReturned v hv) (h₂.1.1.trans ?_)
    exact (congrArg Prod.fst hLast.1.1.1).ge
  · intro later i hi
    have hKept :=
      Invariant.recorded_preserved.along (Invariant.keeps_outer _ session.machine.store)
    obtain ⟨_, _, _, hSize, hOuter⟩ :=
      hKept.after hForms ⟨hHolds, le_rfl, fun _ _ => rfl⟩ later
    exact ⟨lt_of_lt_of_le hi hSize, hOuter i hi⟩

/-- Whatever texts a session has evaluated, its scopes form one tree, and but for
the root each of them was opened by one call, inside the scope in which the called
procedure was made. A call starts the body in a scope that binds each parameter to
the argument at its place. -/
theorem Session.scopes_recorded (limit : Int) (sources : List String) :
    ((Session.new limit).after sources).Scoped ∧
    ∀ (lv : Level) (c : Closure) (body : Expr) (args : List Expr) (m : Machine),
      c.formals.Nodup → args.length = c.formals.length →
      ∃ m' : Machine, lv.applyClosure c body args m = lv.eval body m.store.scopes.size m' ∧
        m'.store.scope m.store.scopes.size =
          { vars := c.formals.zip args, outer := some c.scope } ∧
        (∀ i < m.store.scopes.size, m'.store.scope i = m.store.scope i) ∧
        m'.calls = m.calls ++
          [⟨c, m.store.scopes.size, m'.store.scope m.store.scopes.size⟩] := by
  constructor
  · obtain ⟨w, hStage, hHolds⟩ := Invariant.recorded_preserved.after_new
      Invariant.recorded_holds_initial
      (fun _ hStage _ he => Invariant.recorded_runs_root hStage he) limit sources
    exact .of_holds hStage hHolds
  · intro lv c body args m hFormals hArity
    exact ⟨m.called lv.depth c args, lv.applyClosure_apply body hArity m,
      m.called_opens lv.depth hFormals hArity⟩

/-- A session in which a procedure was made and called once. The scope of the call
is the second scope of the store, and a further call opens a third. -/
theorem Session.scopes_recorded_call :
    let x : Symbol := ⟨"x", by decide⟩
    let machine := ((Session.new 9).after ["(define f (lambda (x) x))", "(f \"a\")"]).machine
    machine.calls.map Call.address = [1] ∧ machine.store.Rooted ∧
      (∀ call ∈ machine.calls, (machine.store.scope 1).outer = some call.closure.scope) ∧
      ∃ m', (Level.under (.ofLimit 9) 0).applyClosure ⟨0, [x], Store.root⟩ (.leaf (.symbol x))
          [.string "b"] machine =
        (Level.under (.ofLimit 9) 0).eval (.leaf (.symbol x)) 2 m' ∧
        m'.store.scope 2 = { vars := [(x, .string "b")], outer := some Store.root } := by
  intro x machine
  let f : Symbol := ⟨"f", by decide⟩
  let lambda := Expr.node (.symbol Keyword.lambda.symbol) [.leaf (.symbol x), .leaf (.symbol x)]
  have hDefine : readSource "(define f (lambda (x) x))" =
      .ok [.node (.symbol Keyword.define.symbol) [.leaf (.symbol f), lambda]] := by
    let δs : List Derivation := [.list (.word "define") [.atom (.word "f"),
      .list (.word "lambda") [.list (.word "x") [], .atom (.word "x")]]]
    have hDerives : Derives "(define f (lambda (x) x))" δs := by decide +kernel
    exact readSource_eq_ok_iff.mpr ⟨δs, hDerives, rfl⟩
  have hCall : readSource "(f \"a\")" = .ok [.node (.symbol f) [.string "a"]] := by
    have hDerives : Derives "(f \"a\")" [.list (.word "f") [.atom (.string "\"a\"")]] := by
      decide +kernel
    exact readSource_eq_ok_iff.mpr ⟨_, hDerives, rfl⟩
  have hAddresses : machine.calls.map Call.address = [1] := by
    show (((Session.new 9).eval _).2.eval _).2.machine.calls.map Call.address = [1]
    rw [eval_of_readSource hDefine, eval_of_readSource hCall]
    decide +kernel
  obtain ⟨⟨hRooted, hRecorded, _, _, _⟩, hOpens⟩ :=
    Session.scopes_recorded 9 ["(define f (lambda (x) x))", "(f \"a\")"]
  have hSize : machine.store.scopes.size = 2 := by
    rw [hRecorded.size, ← List.length_map (f := Call.address), hAddresses]
    rfl
  refine ⟨hAddresses, hRooted, ?_, ?_⟩
  · intro call hMember
    have hAddress : call.address ∈ [1] := hAddresses ▸ List.mem_map_of_mem hMember
    rw [← List.mem_singleton.mp hAddress]
    exact hRecorded.outer call hMember
  · obtain ⟨m', hRun, hScope, _⟩ := hOpens (Level.under (.ofLimit 9) 0) ⟨0, [x], Store.root⟩
      (.leaf (.symbol x)) [.string "b"] machine (by decide) rfl
    rw [hSize] at hRun hScope
    exact ⟨m', hRun, hScope⟩

end PlotLang
