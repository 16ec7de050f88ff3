import Mathlib.Algebra.Group.Nat.Defs
import Mathlib.Algebra.Group.Prod
import Mathlib.Data.Nat.Basic
import PlotLang.Proofs.Session

/-! Closed stores. A procedure refers to a scope by address, and nothing in the
type says that the address is in use. In the stores that come up it always is:
procedures are made in scopes that exist, and scopes are never taken away. -/
namespace PlotLang

namespace Store
variable (st : Store)

/-- How many scopes and how many procedures a store has made. -/
def extent : ℕ × ℕ := (st.scopes.size, st.closures)

@[simp] theorem extent_bind (s : ScopeId) (x : Symbol) (v : Expr) :
    (st.bind s x v).extent = st.extent := by
  simp [extent]

@[simp] theorem extent_newClosure : st.newClosure.2.extent = st.extent + (0, 1) := rfl

@[simp] theorem extent_extend (sc : Scope) : (st.extend sc).extent = st.extent + (1, 0) := by
  simp [extent]

end Store

/-- The atom refers to nothing beyond the given counts. -/
def Atom.Within (w : ℕ × ℕ) : Atom → Prop
  | .lambda c => c.scope < w.1 ∧ c.identity < w.2
  | _ => True

def Expr.Within (w : ℕ × ℕ) (e : Expr) : Prop := ∀ a ∈ e.atoms, a.Within w

/-- What exists at a stage exists at all later ones. -/
theorem Atom.Within.mono {w w' : ℕ × ℕ} (hStage : w ≤ w') {a : Atom} (ha : a.Within w) :
    a.Within w' := by
  cases a with
  | lambda c => exact ⟨lt_of_lt_of_le ha.1 hStage.1, lt_of_lt_of_le ha.2 hStage.2⟩
  | _ => trivial

namespace Expr.Within
variable {w : ℕ × ℕ} {e v : Expr}

theorem mono {w' : ℕ × ℕ} (hStage : w ≤ w') (he : e.Within w) : e.Within w' :=
  fun a ha => (he a ha).mono hStage

theorem head (he : e.Within w) : e.head.Within w := he e.head e.head_mem_atoms

theorem child (he : e.Within w) {c : Expr} (hc : c ∈ e.tail) : c.Within w :=
  fun a ha => he a (mem_atoms_of_mem_tail hc ha)

theorem property (he : e.Within w) {key : String} (hv : e.property? key = some v) : v.Within w :=
  fun a ha => he a (mem_atoms_of_mem_properties (Table.mem_of_get? hv) ha)

/-- An expression reaches no further than its head and its children. -/
theorem node {a : Atom} (ha : a.Within w) {es : List Expr} (hes : ∀ e ∈ es, e.Within w) :
    (Expr.node a es).Within w := by
  intro b hb
  rcases mem_atoms.mp hb with rfl | ⟨c, hc, hb⟩ | ⟨p, hp, _⟩
  · exact ha
  · exact hes c hc b hb
  · cases hp

theorem leaf {a : Atom} (ha : a.Within w) : (Expr.leaf a).Within w := .node ha (by simp)

theorem list {es : List Expr} (hes : ∀ e ∈ es, e.Within w) : (Expr.list es).Within w :=
  .node (a := .list) trivial hes

/-- A property brings in what its value reaches and nothing else. -/
theorem setProperty (he : e.Within w) (hv : v.Within w) (key : String) :
    (e.setProperty key v).Within w := by
  intro a ha
  rcases mem_atoms.mp ha with rfl | ⟨c, hc, ha⟩ | ⟨p, hp, ha⟩
  · exact he.head
  · exact he.child hc a ha
  · rcases Table.mem_put hp with rfl | hOld
    · exact hv a ha
    · exact he a (mem_atoms_of_mem_properties hOld ha)

/-- What the reader builds refers to no scope at all. -/
theorem of_isForm (he : e.IsForm) (w : ℕ × ℕ) : e.Within w := by
  induction he with
  | none => exact .leaf trivial
  | list => exact .list (by simp)
  | @node a es hHead _ ih =>
      obtain ⟨_, hWord⟩ := hHead
      have hWritten := Atom.isWritten_of_ofWord? hWord
      refine .node ?_ ih
      cases a with
      | lambda c => cases hWritten
      | _ => trivial

/-- Numbers, texts and names refer to nothing in the store. -/
theorem datum {a : Atom} (ha : a.isDatum = true) : (Expr.leaf a).Within w := by
  refine .leaf ?_
  cases a with
  | lambda c => cases ha
  | _ => trivial

/-- Values that are put together from known values reach no further. -/
theorem constructive : Correspondence.Constructive Expr.Within where
  mono := fun hStage hv => hv.mono hStage
  datum := .datum
  list := .list
  element := fun hv _ hc => hv.child hc
  setProperty := fun he hv _ => he.setProperty hv _
  property := fun he hv => he.property hv
  plot := fun hItems _ => .node (a := .discrete _) trivial hItems

end Expr.Within

/-- All values refer to scopes of the store itself, and a scope is made after
the scope around it. -/
structure Store.Closed (st : Store) : Prop where
  vars : ∀ i, ∀ p ∈ (st.scope i).vars, p.2.Within st.extent
  outer : ∀ i o, (st.scope i).outer = some o → o < i

namespace Store.Closed
variable {st : Store}

/-- Binding keeps the store closed if the value refers to what is there. -/
theorem bind (hStore : st.Closed) (s : ScopeId) (x : Symbol) {v : Expr} (hv : v.Within st.extent) :
    (st.bind s x v).Closed where
  vars := by
    intro i p hp
    rw [extent_bind]
    rcases st.mem_vars_bind hp with rfl | hOld
    · exact hv
    · exact hStore.vars i p hOld
  outer := by
    intro i o ho
    rw [st.outer_bind] at ho
    exact hStore.outer i o ho

/-- Drawing an identity for a procedure keeps the store closed. -/
theorem newClosure (hStore : st.Closed) : st.newClosure.2.Closed where
  vars := by
    intro i p hp
    have hStage : st.extent ≤ st.newClosure.2.extent := ⟨le_rfl, Nat.le_succ _⟩
    exact (hStore.vars i p hp).mono hStage
  outer := hStore.outer

/-- The scope of a call refers to the scope that the procedure captured, and binds
its arguments. -/
theorem extend_ofCall (hStore : st.Closed) {c : Closure} {args : List Expr}
    (hClosure : c.scope < st.scopes.size) (hArgs : ∀ a ∈ args, a.Within st.extent) :
    (st.extend (.ofCall c args)).Closed where
  vars := by
    intro i p hp
    have hStage : st.extent ≤ (st.extend (.ofCall c args)).extent :=
      ⟨by simp [extent], le_rfl⟩
    rw [scope_extend] at hp
    by_cases hNew : i = st.scopes.size
    · rw [if_pos hNew] at hp
      exact (hArgs p.2 (Scope.mem_args_of_mem_ofCall hp)).mono hStage
    · rw [if_neg hNew] at hp
      exact (hStore.vars i p hp).mono hStage
  outer := by
    intro i o ho
    rw [scope_extend] at ho
    by_cases hNew : i = st.scopes.size
    · rw [if_pos hNew] at ho
      cases ho
      rw [hNew]
      exact hClosure
    · rw [if_neg hNew] at ho
      exact hStore.outer i o ho

/-- A store that binds nothing refers to nothing. -/
theorem empty (closures : Nat) : ({ Store.empty with closures } : Store).Closed where
  vars := by
    intro i p hp
    change p ∈ (Store.empty.scope i).vars at hp
    rw [scope_empty] at hp
    cases hp
  outer := by
    intro i o ho
    change (Store.empty.scope i).outer = some o at ho
    rw [scope_empty] at ho
    cases ho

theorem initial : Store.initial.Closed := by
  obtain ⟨_, _, hScopes⟩ := initial_spec
  refine ⟨fun i p hp => ?_, fun i o ho => ?_⟩
  · obtain ⟨a, ha, hValue⟩ := (hScopes i).2 p hp
    rw [hValue]
    exact .datum ha
  · rw [(hScopes i).1] at ho
    cases ho

end Store.Closed

/-- Stages are the counts of scopes and procedures made so far. -/
def Invariant.closed : Invariant (ℕ × ℕ) where
  admits := fun w v => v.Within w
  runs := fun w e s => e.Within w ∧ s < w.1
  holds := fun w m => m.store.extent = w ∧ m.store.Closed

/-- No step makes a value that refers to something not in the store. -/
theorem Invariant.closed_preserved : Invariant.closed.Preserved where
  toValueLaws := Expr.Within.constructive.valueLaws
  toFormLaws := .of_children
    (fun hStage hRuns => ⟨hRuns.1.mono hStage, lt_of_lt_of_le hRuns.2 hStage.1⟩)
    (fun hRuns _ => hRuns.1) fun hRuns hc => ⟨hRuns.1.child hc, hRuns.2⟩
  logged := fun hHolds _ => hHolds
  admits_lookup := by
    rintro _ e s m x v _ ⟨rfl, hStore⟩ hFound
    obtain ⟨i, hi⟩ := Store.exists_mem_of_lookup? hFound
    exact hStore.vars i (x, v) hi
  defined := by
    rintro _ e s name value x v m _ _ _ _ hv ⟨rfl, hStore⟩ _
    exact ⟨m.store.extent, le_rfl, m.store.extent_bind s x v, hStore.bind s x hv⟩
  minted := by
    rintro _ e s params forms formals m hRuns hForm _ _ ⟨rfl, hStore⟩
    obtain ⟨hArgs, _⟩ := Expr.of_form_special hForm
    have hStage : m.store.extent ≤ m.minted.store.extent := ⟨le_rfl, Nat.le_succ _⟩
    have hBody : (bodyOf forms).Within m.store.extent := by
      have hForms : ∀ form ∈ forms, form.Within m.store.extent := fun form hMember =>
        hRuns.1.child (hArgs ▸ List.mem_cons_of_mem _ hMember)
      rcases bodyOf_cases forms with hOne | hAll
      · exact hForms _ hOne
      · rw [hAll]
        exact .node (a := .symbol _) trivial hForms
    refine ⟨m.minted.store.extent, hStage, ⟨rfl, hStore.newClosure⟩, .node ?_ ?_⟩
    · exact ⟨hRuns.2, Nat.lt_succ_self _⟩
    · simpa using hBody.mono hStage
  called := by
    rintro _ proc c body rest args m d hProc hHead hTail hArgs _ ⟨rfl, hStore⟩
    have hClosure : c.scope < m.store.scopes.size := by
      have hWithin := hProc.head
      rw [hHead] at hWithin
      exact hWithin.1
    have hStage : m.store.extent ≤ (m.called d c args).store.extent :=
      ⟨by simp [Store.extent, Machine.called], le_rfl⟩
    refine ⟨(m.called d c args).store.extent, hStage, ⟨?_, ?_⟩, rfl, ?_⟩
    · exact (hProc.child (hTail ▸ List.mem_cons_self)).mono hStage
    · simp [Store.extent, Machine.called]
    · exact hStore.extend_ofCall hClosure hArgs

/-- The root scope is there from the start, so forms may be evaluated in it. -/
theorem Invariant.closed_runs_root {w : ℕ × ℕ} (hStage : (1, 0) ≤ w) {e : Expr} (he : e.IsForm) :
    Invariant.closed.runs w e Store.root :=
  ⟨.of_isForm he w, hStage.1⟩

theorem Invariant.closed_holds_initial (log : Array LogRecord) :
    Invariant.closed.holds (1, 0) ⟨Store.initial, log⟩ := by
  obtain ⟨hSize, hClosures, _⟩ := Store.initial_spec
  refine ⟨?_, .initial⟩
  rw [Store.extent, hSize, hClosures]

namespace Session.Reached
variable {session : Session} (h : session.Reached)
include h

/-- Stages only grow, and the initial store is the first of them. -/
theorem exists_extent : ∃ w ≥ (1, 0), Invariant.closed.holds w session.machine :=
  Invariant.closed_preserved.reached Invariant.closed_holds_initial
    (fun _ hStage _ he => Invariant.closed_runs_root hStage he) h

/-- No session ever holds a value that refers to a scope or identity that is not
there. -/
theorem closed : session.machine.store.Closed := by
  obtain ⟨_, _, _, hStore⟩ := h.exists_extent
  exact hStore

/-- The value of a text refers to the store that its evaluation leaves. -/
theorem within_of_eval {source : String} {v : Expr} (hv : (session.eval source).1 = .ok v) :
    v.Within (session.eval source).2.machine.store.extent := by
  obtain ⟨w, hStage, hHolds⟩ := h.exists_extent
  obtain ⟨w', _, ⟨rfl, _⟩, hReturned⟩ := Invariant.closed_preserved.eval
    (fun _ hLater _ he => Invariant.closed_runs_root (hStage.trans hLater) he) hHolds source
  exact hReturned v hv

end Session.Reached

end PlotLang
