import PlotLang.Proofs.Closed
import PlotLang.Proofs.Confinement
import PlotLang.Proofs.Renaming.Message
import PlotLang.Proofs.Renaming.Store

/-! Calling a procedure twice. The first call leaves scopes and procedures behind,
and the second call makes its own at other addresses. Nothing else tells the
calls apart: what there was before is unchanged, and nothing there refers to
what the first call made. So the second call runs like the first one, with all
that the first one made moved on by as much as it made. -/
namespace PlotLang

/-- Keeps what is below a bound and moves the rest on. -/
def shift (bound offset i : Nat) : Nat := if i < bound then i else i + offset

theorem shift_of_lt {bound i : Nat} (h : i < bound) (offset : Nat) : shift bound offset i = i :=
  if_pos h

theorem shift_of_le {bound i : Nat} (h : bound ≤ i) (offset : Nat) :
    shift bound offset i = i + offset :=
  if_neg (Nat.not_lt.mpr h)

/-- What is new is moved as a block, so nothing falls together. -/
theorem strictMono_shift (bound offset : Nat) : StrictMono (shift bound offset) := by
  intro i j hLess
  unfold shift
  split <;> split <;> omega

namespace Renaming

/-- Keeps what is within the given counts of scopes and procedures, and moves
the rest on. -/
def shift (w offset : ℕ × ℕ) : Renaming :=
  .ofAddresses (PlotLang.shift w.1 offset.1) (PlotLang.shift w.2 offset.2)

theorem strictMono_scope_shift (w offset : ℕ × ℕ) : StrictMono (shift w offset).scope :=
  strictMono_shift w.1 offset.1

end Renaming

section Shift
variable {w : ℕ × ℕ}

/-- What is below the boundary is not moved. -/
theorem Atom.Within.rename_shift {a : Atom} (ha : a.Within w) (offset : ℕ × ℕ) :
    a.rename (.shift w offset) = a := by
  cases a with
  | lambda c =>
      obtain ⟨identity, formals, scope⟩ := c
      have hIdentity : (Renaming.shift w offset).identity identity = identity :=
        shift_of_lt ha.2 offset.2
      have hScope : (Renaming.shift w offset).scope scope = scope := shift_of_lt ha.1 offset.1
      have hFormals : formals.map (Renaming.shift w offset).symbol = formals := List.map_id formals
      simp only [Atom.rename, Closure.rename, hIdentity, hScope, hFormals]
  | _ => rfl

/-- A value that was there before is the same after the shift. -/
theorem Expr.Within.rename_shift {e : Expr} (he : e.Within w) (offset : ℕ × ℕ) :
    e.rename (.shift w offset) = e :=
  Expr.rename_eq_self fun a ha => (he a ha).rename_shift offset

/-- A value without procedures refers to no scope, so it stays as it is. -/
theorem Expr.rename_shift_of_forall_ne {e : Expr} (h : ∀ c, Atom.lambda c ∉ e.atoms)
    (offset : ℕ × ℕ) : e.rename (.shift w offset) = e := by
  refine Expr.rename_eq_self fun a ha => ?_
  cases a with
  | lambda c => exact absurd ha (h c)
  | _ => rfl

/-- Scopes that were there before refer to nothing that is moved. -/
theorem Store.Closed.rename_shift {st : Store} (hStore : st.Closed) {i : ScopeId}
    (hi : i < st.scopes.size) (offset : ℕ × ℕ) :
    (st.scope i).rename (.shift st.extent offset) = st.scope i := by
  have hVars : (st.scope i).vars.map
      (fun p => ((Renaming.shift st.extent offset).symbol p.1,
        p.2.rename (.shift st.extent offset))) = (st.scope i).vars.map id :=
    List.map_congr_left fun p hp => Prod.ext rfl ((hStore.vars i p hp).rename_shift offset)
  have hOuter : (st.scope i).outer.map (Renaming.shift st.extent offset).scope =
      (st.scope i).outer := by
    cases hCase : (st.scope i).outer with
    | none => rfl
    | some o => exact congrArg some (shift_of_lt ((hStore.outer i o hCase).trans hi) offset.1)
  have hReserved : (st.scope i).reserved.map (Renaming.shift st.extent offset).symbol =
      (st.scope i).reserved := List.map_id _
  unfold Scope.rename
  rw [hVars, hOuter, hReserved, List.map_id]

end Shift

/-- Two runs that started alike, the second one in a store that already held
more. The counts are those at the start and how much more there was. -/
def Correspondence.ofShift (start offset : ℕ × ℕ) : Correspondence (ℕ × ℕ) where
  names := .shift start offset
  admits := Invariant.closed.admits
  runs := Invariant.closed.runs
  machine := fun w m m' => start ≤ w ∧ Invariant.closed.holds w m ∧
    m.store.Moved (.shift start offset) m'.store ∧
    m'.store.extent = w + offset
  error := fun e e' => e' = e.rename (.shift start offset)
  excused := fun _ => False

namespace Correspondence
variable {start offset : ℕ × ℕ}

/-- The next scope and the next procedure are new in both runs. -/
theorem ofShift_next {w : ℕ × ℕ} {m m' : Machine} (h : (ofShift start offset).machine w m m') :
    m'.store.scopes.size = (Renaming.shift start offset).scope m.store.scopes.size ∧
      m'.store.closures = (Renaming.shift start offset).identity m.store.closures := by
  obtain ⟨hStart, ⟨rfl, _⟩, _, hExtent⟩ := h
  have hScopes : start.1 ≤ m.store.scopes.size := hStart.1
  have hClosures : start.2 ≤ m.store.closures := hStart.2
  constructor
  · exact (congrArg Prod.fst hExtent).trans (shift_of_le hScopes offset.1).symm
  · exact (congrArg Prod.snd hExtent).trans (shift_of_le hClosures offset.2).symm

/-- The unary part of every law is the invariant of closed stores; what is left
is that the operations take the scopes of both stores along. -/
theorem ofShift_lawful (start offset : ℕ × ℕ) : (ofShift start offset).Lawful where
  toValueLaws := Invariant.closed_preserved.toValueLaws
  toFormLaws := Invariant.closed_preserved.toFormLaws
  error_rename := fun _ => rfl
  machine_logged := fun hMachine _ => hMachine
  lookup := by
    rintro w e s m m' _ ⟨_, ⟨_, hStore⟩, hMoved, _⟩ x
    exact hMoved.lookup? (Renaming.strictMono_scope_shift start offset) hStore.outer s x
  admits_lookup := by
    rintro w e s m m' hRuns ⟨_, hHolds, _, _⟩ x v hFound
    exact Invariant.closed_preserved.admits_lookup hRuns hHolds hFound
  reserved := by
    rintro w e s m m' _ ⟨_, ⟨_, hStore⟩, hMoved, _⟩ x
    exact hMoved.isReserved (Renaming.strictMono_scope_shift start offset) hStore.outer s x
  defined := by
    rintro w e s name value x v m m' hRuns hForm hName hKeyword hv hMachine hFree
    obtain ⟨hSize, _⟩ := ofShift_next hMachine
    obtain ⟨hStart, hHolds, hMoved, hExtent⟩ := hMachine
    obtain ⟨w', hStage, hDefined⟩ :=
      Invariant.closed_preserved.defined hRuns hForm hName hKeyword hv hHolds hFree
    have hSame : w' = w := by
      rw [← hDefined.1, ← hHolds.1]
      exact m.store.extent_bind s x v
    subst hSame
    have hOrder := Renaming.strictMono_scope_shift start offset
    have hScope : s < m.store.scopes.size := by
      rw [← hHolds.1] at hRuns
      exact hRuns.2
    have hScope' : (Renaming.shift start offset).scope s < m'.store.scopes.size := by
      rw [hSize]
      exact hOrder hScope
    refine ⟨w', le_rfl, hStart, hDefined, hMoved.bind hOrder.injective hScope hScope' x v, ?_⟩
    rw [← hExtent]
    exact m'.store.extent_bind _ _ _
  minted := by
    rintro w e s params forms formals m m' hRuns hForm hForms hFormals hMachine
    obtain ⟨_, hIdentity⟩ := ofShift_next hMachine
    obtain ⟨hStart, hHolds, hMoved, hExtent⟩ := hMachine
    obtain ⟨w', hStage, hMinted, hAdmits⟩ :=
      Invariant.closed_preserved.minted hRuns hForm hForms hFormals hHolds
    refine ⟨hIdentity, w', hStage, ⟨hStart.trans hStage, hMinted, ⟨hMoved.scope⟩, ?_⟩, hAdmits⟩
    rw [Machine.minted, Store.extent_newClosure, hExtent, ← hMinted.1, ← hHolds.1, Machine.minted,
      Store.extent_newClosure, add_right_comm]
  called := by
    rintro w proc c body rest args m m' d d' hProc hHead hTail hArgs hArity hMachine
    obtain ⟨hSize, _⟩ := ofShift_next hMachine
    obtain ⟨hStart, hHolds, hMoved, hExtent⟩ := hMachine
    obtain ⟨w', hStage, hRuns, hCalled⟩ :=
      Invariant.closed_preserved.called d hProc hHead hTail hArgs hArity hHolds
    have hOrder := Renaming.strictMono_scope_shift start offset
    refine ⟨hSize, w', hStage, hRuns, hStart.trans hStage, hCalled, ?_, ?_⟩
    · simp only [Machine.called]
      rw [ofShift, ← Scope.rename_ofCall]
      exact hMoved.extend hOrder.injective hSize _
    · rw [Machine.called, Store.extent_extend, hExtent, ← hCalled.1, ← hHolds.1, Machine.called,
        Store.extent_extend, add_right_comm]

end Correspondence

/-- How many scopes and procedures the second store has more. -/
def Store.growth (st st' : Store) : ℕ × ℕ := st'.extent - st.extent

/-- How much a store has grown can be read off its extent. -/
theorem Store.growth_of_extent {st st' : Store} {offset : ℕ × ℕ}
    (h : st'.extent = st.extent + offset) : st.growth st' = offset := by
  rw [growth, h]
  exact Prod.ext (Nat.add_sub_cancel_left ..) (Nat.add_sub_cancel_left ..)

/-- The second store is closed and holds the scopes of the first as they were.
What it has more is not looked at. -/
structure Store.Grown (st st' : Store) : Prop where
  extent_le : st.extent ≤ st'.extent
  scope : ∀ i < st.scopes.size, st'.scope i = st.scope i
  closed : st'.Closed

namespace Store.Grown
variable {st st' st'' : Store}

theorem refl (hStore : st.Closed) : st.Grown st := ⟨le_rfl, fun _ _ => rfl, hStore⟩

theorem trans (h : st.Grown st') (h' : st'.Grown st'') : st.Grown st'' where
  extent_le := h.extent_le.trans h'.extent_le
  scope := by
    intro i hi
    rw [h'.scope i (Nat.lt_of_lt_of_le hi h.extent_le.1), h.scope i hi]
  closed := h'.closed

end Store.Grown

namespace Correspondence

/-- A run may start in a store that has grown, and it runs as it did before. -/
theorem ofShift_of_grown {m m' : Machine} (hStore : m.store.Closed)
    (hGrown : m.store.Grown m'.store) :
    (ofShift m.store.extent (m.store.growth m'.store)).machine m.store.extent m m' := by
  have hScopes : m.store.scopes.size ≤ m'.store.scopes.size := hGrown.extent_le.1
  refine ⟨le_rfl, ⟨rfl, hStore⟩, ⟨fun i => ?_⟩, ?_⟩
  · by_cases hOld : i < m.store.scopes.size
    · -- this scope is as it was, and nothing in it refers beyond the old extent
      have hSame : (Renaming.shift m.store.extent (m.store.growth m'.store)).scope i = i :=
        shift_of_lt hOld _
      rw [hSame, hStore.rename_shift hOld]
      exact hGrown.scope i hOld
    · -- an address not in use is moved beyond everything that there is more
      have hNew := Nat.le_of_not_lt hOld
      have hMoved : (Renaming.shift m.store.extent (m.store.growth m'.store)).scope i =
          i + (m'.store.scopes.size - m.store.scopes.size) := shift_of_le hNew _
      have hUnused : m'.store.scopes.size ≤ i + (m'.store.scopes.size - m.store.scopes.size) := by
        omega
      rw [hMoved, m.store.scope_of_size_le hNew, m'.store.scope_of_size_le hUnused]
      rfl
  · exact Prod.ext (Nat.add_sub_cancel' hGrown.extent_le.1).symm
      (Nat.add_sub_cancel' hGrown.extent_le.2).symm

/-- Under the same ceiling both runs have the same levels. -/
theorem ofShift_levels (start offset : ℕ × ℕ) (c : Ceiling) (d : Int) :
    (ofShift start offset).Levels (.under c d) (.under c d) := by
  have hC := ofShift_lawful start offset
  have hExceed (w : ℕ × ℕ) : (ofShift start offset).Agree w (ofShift start offset).Same
      (exceed c) (exceed c) :=
    fun _ _ hMachine => .error le_rfl (hC.machine_logged hMachine rfl) rfl
  exact fun _ _ _ hRuns => hC.evalWithin hExceed _ hRuns

end Correspondence

section Calls
variable {m : Machine} {proc : Expr} {args : List Expr} (hProc : proc.Within m.store.extent)
  (hArgs : ∀ a ∈ args, a.Within m.store.extent) (c : Ceiling) (d : Int)
include hProc hArgs

/-- Both calls are given the same procedure and arguments, since nothing in
them refers to what the first call makes. -/
theorem results_apply {m' : Machine}
    (hMachine : (Correspondence.ofShift m.store.extent (m.store.growth m'.store)).machine
      m.store.extent m m') :
    let C := Correspondence.ofShift m.store.extent (m.store.growth m'.store)
    C.Results m.store.extent C.Same ((Level.under c d).apply proc args m)
      ((Level.under c d).apply proc args m') := by
  intro C
  have hResults := (Correspondence.ofShift_lawful _ _).apply
    (Correspondence.ofShift_levels _ _ c d) hProc hArgs m m' hMachine
  have hSameProc : proc.rename C.names = proc := hProc.rename_shift _
  have hSameArgs : args.map (Expr.rename C.names) = args.map id :=
    List.map_congr_left fun a ha => (hArgs a ha).rename_shift _
  rw [hSameProc, hSameArgs, List.map_id] at hResults
  exact hResults

/-- A call only adds to the store; what was there before is still there and
unchanged. -/
theorem grown_apply (hStore : m.store.Closed) :
    m.store.Grown (Outcome.machine ((Level.under c d).apply proc args m)).store := by
  have hEnds : Invariant.closed.Ends m.store.extent ((Level.under c d).apply proc args m) :=
    Invariant.closed_preserved.apply c _ d hProc hArgs ⟨rfl, hStore⟩
  obtain ⟨_, hStage, rfl, hAfter⟩ := hEnds.exists_holds
  exact ⟨hStage, fun i hi => scope_apply c d m proc args hi, hAfter⟩

/-- The store that a call leaves behind holds the old scopes as they were. What
it has more is not looked at. -/
theorem moved_apply (hStore : m.store.Closed) :
    let m' := Outcome.machine ((Level.under c d).apply proc args m)
    (Correspondence.ofShift m.store.extent (m.store.growth m'.store)).machine m.store.extent m m' :=
  Correspondence.ofShift_of_grown hStore (grown_apply hProc hArgs c d hStore)

end Calls

/-- A procedure that is called twice with the same arguments behaves the same
both times. In the stores that come up, all values are of the store itself, and
in such a store the second call fails like the first one or has the same value,
where what the first call made is what the second call made in its place. -/
theorem apply_repeatable :
    (∀ session : Session, session.Reached → session.machine.store.Closed ∧
      ∀ (source : String) (v : Expr), (session.eval source).1 = .ok v →
        v.Within (session.eval source).2.machine.store.extent) ∧
    ∀ (m : Machine) (proc : Expr) (args : List Expr) (c : Ceiling) (d : Int),
      m.store.Closed → proc.Within m.store.extent → (∀ a ∈ args, a.Within m.store.extent) →
      (∀ v m₁, (Level.under c d).apply proc args m = .ok v m₁ →
        let r := Renaming.shift m.store.extent (m.store.growth m₁.store)
        ∃ m₂, (Level.under c d).apply proc args m₁ = .ok (v.rename r) m₂ ∧
          m₁.store.Moved r m₂.store ∧
          m₁.store.growth m₂.store = m.store.growth m₁.store ∧
          ((∀ c, Atom.lambda c ∉ v.atoms) → v.rename r = v)) ∧
      ∀ e m₁, (Level.under c d).apply proc args m = .error e m₁ →
        ∃ e' m₂, (Level.under c d).apply proc args m₁ = .error e' m₂ ∧ e'.kind? = e.kind? ∧
          e'.message = e.message := by
  refine ⟨fun session h => ⟨h.closed, fun source v => h.within_of_eval⟩, ?_⟩
  intro m proc args c d hStore hProc hArgs
  have hMachine := moved_apply hProc hArgs c d hStore
  have hResults := results_apply hProc hArgs c d hMachine
  constructor
  · intro v m₁ hFirst r
    simp only [hFirst, Outcome.machine] at hResults
    generalize (Level.under c d).apply proc args m₁ = second at hResults ⊢
    cases hResults with
    | ok _ hAfter hSame =>
        obtain ⟨rfl, _⟩ := hSame
        obtain ⟨_, ⟨rfl, _⟩, hMoved, hExtent⟩ := hAfter
        refine ⟨_, rfl, hMoved, ?_, fun hNone => Expr.rename_shift_of_forall_ne hNone _⟩
        exact Store.growth_of_extent hExtent
  · intro e m₁ hFirst
    simp only [hFirst, Outcome.machine] at hResults
    generalize (Level.under c d).apply proc args m₁ = second at hResults ⊢
    cases hResults with
    | error _ _ hError =>
        refine ⟨_, _, rfl, ?_, ?_⟩
        · rw [hError, EvalError.kind?_rename]
        · rw [hError]
          exact EvalError.message_ofAddresses _ _ e
    | excused hExcused => exact hExcused.elim

/-- A procedure that returns its argument, called twice. -/
theorem apply_repeatable_identity :
    let x : Symbol := ⟨"x", by decide⟩
    let m : Machine := { store := { Store.empty with closures := 1 } }
    let proc := Expr.lambda ⟨0, [x], Store.root⟩ (.leaf (.symbol x))
    let run := (Level.under (.exact 1) 0).apply proc [.string "a"]
    ∃ m₁ m₂, run m = .ok (.string "a") m₁ ∧ run m₁ = .ok (.string "a") m₂ := by
  intro x m proc run
  have hScopes (i : ScopeId) : m.store.scope i = {} := Store.scope_empty i
  have hStore : m.store.Closed := by
    constructor
    · intro i p hp
      rw [hScopes] at hp
      cases hp
    · intro i o ho
      rw [hScopes] at ho
      cases ho
  have hProc : proc.Within m.store.extent :=
    .node (a := .lambda _) ⟨by decide, by decide⟩ (by simpa using .leaf (a := .symbol x) trivial)
  have hArgs : ∀ a ∈ [Expr.string "a"], a.Within m.store.extent := by simpa using .datum rfl
  obtain ⟨m₂, hSecond, _, _, hSame⟩ :=
    (apply_repeatable.2 m proc [.string "a"] (.exact 1) 0 hStore hProc hArgs).1 _ _ rfl
  refine ⟨_, m₂, rfl, ?_⟩
  have hNone (c : Closure) : Atom.lambda c ∉ (Expr.string "a").atoms := by
    intro hc
    rcases Expr.mem_atoms.mp hc with h | ⟨_, h, _⟩ | ⟨_, h, _⟩ <;> cases h
  rw [hSame hNone] at hSecond
  exact hSecond

end PlotLang
