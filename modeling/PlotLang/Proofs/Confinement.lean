import PlotLang.Proofs.Form
import PlotLang.Proofs.Invariant

/-! Effects stay in the scope in which an expression is evaluated. A call works
in a scope of its own, which is new, so of the scopes there were before only the
current one can change, and it changes only by the `define` forms that the
expression holds outside its `lambda` forms. Nothing here depends on how an
evaluation ends. -/
namespace PlotLang

namespace Expr

mutual

/-- The names of the `define` forms in an expression, except for those inside
a procedure or the form of one. -/
def definedNames : Expr → List Symbol
  | ⟨.lambda _, _, _⟩ => []
  | ⟨.symbol x, es, _⟩ =>
    match Keyword.ofSymbol? x with
    | some .lambda => []
    | some .define => (es.head?.bind asSymbol?).toList ++ definedNamesAll es
    | _ => definedNamesAll es
  | ⟨_, es, _⟩ => definedNamesAll es

def definedNamesAll : List Expr → List Symbol
  | [] => []
  | e :: es => definedNames e ++ definedNamesAll es

end

private theorem subset_definedNamesAll {a : Expr} {es : List Expr} (ha : a ∈ es) :
    a.definedNames ⊆ definedNamesAll es := by
  intro x hx
  induction ha with
  | head => exact List.mem_append_left _ hx
  | tail _ _ ih => exact List.mem_append_right _ ih

/-- The names that an argument of a form defines are defined by the form. A
procedure is the exception: what its body defines is defined when it is called,
and elsewhere. -/
theorem definedNames_subset_of_special {e a : Expr} {k : Keyword} {args : List Expr}
    (hForm : e.form = .special k args) (hKeyword : k ≠ .lambda) (ha : a ∈ args) :
    a.definedNames ⊆ e.definedNames := by
  obtain ⟨rfl, x, hHead, hName⟩ := of_form_special hForm
  obtain ⟨head, es, ps⟩ := e
  subst hHead
  intro y hy
  have hMember := subset_definedNamesAll ha hy
  rw [definedNames, hName]
  cases k with
  | lambda => exact absurd rfl hKeyword
  | define => exact List.mem_append_right _ hMember
  | _ => exact hMember

/-- The names that an argument of a call defines are defined by the call. -/
theorem definedNames_subset_of_call {e a : Expr} {f : Atom} {args : List Expr}
    (hForm : e.form = .call f args) (ha : a ∈ args) : a.definedNames ⊆ e.definedNames := by
  obtain ⟨rfl, hCompound, hName⟩ := of_form_call hForm
  obtain ⟨head, es, ps⟩ := e
  have hMember := subset_definedNamesAll ha
  cases head with
  | lambda c => cases hCompound
  | symbol x =>
      rw [definedNames, hName x rfl]
      exact hMember
  | _ => exact hMember

/-- A definition defines its own name. -/
theorem mem_definedNames {e name value : Expr} {x : Symbol}
    (hForm : e.form = .special .define [name, value]) (hx : name.asSymbol? = some x) :
    x ∈ e.definedNames := by
  obtain ⟨hArgs, y, hHead, hName⟩ := of_form_special hForm
  obtain ⟨head, es, ps⟩ := e
  subst hHead hArgs
  simp [definedNames, hName, hx]

/-- The second definition is inside a procedure and counts for its own scope. -/
example :
    let x : Symbol := ⟨"x", by decide⟩
    let define := Expr.node (.symbol Keyword.define.symbol) [.leaf (.symbol x), .string "a"]
    let lambda := Expr.node (.symbol Keyword.lambda.symbol) [.none, define]
    definedNames (.node (.symbol Keyword.sequence.symbol) [define, lambda]) = [x] := by
  decide

end Expr

namespace Scope

/-- The scope after values were written under names, one after the other. -/
def write (sc : Scope) (writes : List (Symbol × Expr)) : Scope :=
  { sc with vars := writes.foldl (fun vars p => Table.put p.1 p.2 vars) sc.vars }

@[simp] theorem write_nil (sc : Scope) : sc.write [] = sc := rfl

theorem write_cons (sc : Scope) (p : Symbol × Expr) (writes : List (Symbol × Expr)) :
    sc.write (p :: writes) = ({ sc with vars := Table.put p.1 p.2 sc.vars } : Scope).write writes :=
  rfl

/-- Names that are not written keep their values. -/
theorem get?_write {x : Symbol} {writes : List (Symbol × Expr)} (h : ∀ p ∈ writes, p.1 ≠ x)
    (sc : Scope) : Table.get? (sc.write writes).vars x = Table.get? sc.vars x := by
  induction writes generalizing sc with
  | nil => rfl
  | cons p writes ih =>
      obtain ⟨hFirst, hRest⟩ := List.forall_mem_cons.mp h
      rw [write_cons, ih hRest]
      exact Table.get?_put_of_ne (Ne.symm hFirst) p.2 sc.vars

/-- Writing never takes a name away. -/
theorem has_write {x : Symbol} {sc : Scope} (h : Table.has sc.vars x = true)
    (writes : List (Symbol × Expr)) : Table.has (sc.write writes).vars x = true := by
  induction writes generalizing sc with
  | nil => exact h
  | cons p writes ih =>
      rw [write_cons]
      apply ih
      by_cases hName : x = p.1
      · simp [Table.has, hName]
      · unfold Table.has
        rw [Table.get?_put_of_ne hName]
        exact h

end Scope

/-- Of the scopes of the first store, the second differs at most in one, and
there only by what was written under the given names. -/
structure Store.Confined (s : ScopeId) (names : List Symbol) (st st' : Store) : Prop where
  size_le : st.scopes.size ≤ st'.scopes.size
  others : ∀ i < st.scopes.size, i ≠ s → st'.scope i = st.scope i
  own : s < st.scopes.size →
    ∃ writes, (∀ p ∈ writes, p.1 ∈ names) ∧ st'.scope s = (st.scope s).write writes

namespace Store.Confined
variable {s : ScopeId} {names : List Symbol} {st st' : Store}

/-- A run that does nothing is confined to any scope and any names. -/
theorem refl (s : ScopeId) (names : List Symbol) (st : Store) : Confined s names st st where
  size_le := Nat.le_refl _
  others := fun _ _ _ => rfl
  own := fun _ => ⟨[], by simp, rfl⟩

/-- A run may bind the names it defines, in the scope it runs in. -/
theorem bind_own (h : Confined s names st st') {x : Symbol} (hx : x ∈ names) (v : Expr) :
    Confined s names st (st'.bind s x v) where
  size_le := by
    rw [size_bind]
    exact h.size_le
  others := by
    intro i hi hOther
    rw [scope_bind_of_ne (Ne.symm hOther)]
    exact h.others i hi hOther
  own := by
    intro hScope
    obtain ⟨writes, hNames, hWritten⟩ := h.own hScope
    refine ⟨writes ++ [(x, v)], ?_, ?_⟩
    · simpa [or_imp, forall_and] using ⟨fun y w hy => hNames (y, w) hy, hx⟩
    · rw [scope_bind_self (Nat.lt_of_lt_of_le hScope h.size_le), hWritten]
      simp [Scope.write]

/-- In scopes that a run has made itself it may bind any name. -/
theorem bind_new (h : Confined s names st st') {i : ScopeId} (hi : st.scopes.size ≤ i) (x : Symbol)
    (v : Expr) : Confined s names st (st'.bind i x v) where
  size_le := by
    rw [size_bind]
    exact h.size_le
  others := by
    intro j hj hOther
    have hApart : i ≠ j := Nat.ne_of_gt (Nat.lt_of_lt_of_le hj hi)
    rw [scope_bind_of_ne hApart]
    exact h.others j hj hOther
  own := by
    intro hScope
    have hApart : i ≠ s := Nat.ne_of_gt (Nat.lt_of_lt_of_le hScope hi)
    rw [scope_bind_of_ne hApart]
    exact h.own hScope

/-- A run may make scopes. -/
theorem extend (h : Confined s names st st') (sc : Scope) :
    Confined s names st (st'.extend sc) where
  size_le := by
    rw [size_extend]
    exact Nat.le_succ_of_le h.size_le
  others := by
    intro i hi hOther
    have hOld := Nat.lt_of_lt_of_le hi h.size_le
    rw [scope_extend, if_neg (Nat.ne_of_lt hOld)]
    exact h.others i hi hOther
  own := by
    intro hScope
    have hOld := Nat.lt_of_lt_of_le hScope h.size_le
    rw [scope_extend, if_neg (Nat.ne_of_lt hOld)]
    exact h.own hScope

/-- Where no name may be written, no scope changes at all. -/
theorem scope_of_nil (h : Confined s [] st st') {i : ScopeId} (hi : i < st.scopes.size) :
    st'.scope i = st.scope i := by
  by_cases hOwn : i = s
  · obtain ⟨writes, hNames, hWritten⟩ := h.own (hOwn ▸ hi)
    have hEmpty : writes = [] :=
      List.eq_nil_iff_forall_not_mem.mpr fun p hp => List.not_mem_nil (hNames p hp)
    rw [hOwn, hWritten, hEmpty, Scope.write_nil]
  · exact h.others i hi hOwn

end Store.Confined

/-- Every expression that is evaluated is in a new scope or among those that
define only the given names in the given scope. -/
def Invariant.confined (s : ScopeId) (names : List Symbol) (st : Store) : Invariant Timeless where
  admits := fun _ _ => True
  runs := fun _ e i => st.scopes.size ≤ i ∨ i = s ∧ e.definedNames ⊆ names
  holds := fun _ m => st.Confined s names m.store

/-- Every step of a run stays within what the run may change, scopes of calls
included. -/
theorem Invariant.confined_preserved (s : ScopeId) (names : List Symbol) (st : Store) :
    (Invariant.confined s names st).Preserved where
  toValueLaws := .trivial
  runs_mono := fun _ hRuns => hRuns
  runs_literal := fun _ _ => trivial
  runs_special := by
    intro _ e i k args a hRuns hForm hKeyword ha
    refine hRuns.imp_right fun hOwn => ⟨hOwn.1, ?_⟩
    exact List.Subset.trans (Expr.definedNames_subset_of_special hForm hKeyword ha) hOwn.2
  runs_call := by
    intro _ e i f args a hRuns hForm ha
    refine hRuns.imp_right fun hOwn => ⟨hOwn.1, ?_⟩
    exact List.Subset.trans (Expr.definedNames_subset_of_call hForm ha) hOwn.2
  logged := fun hHolds _ => hHolds
  admits_lookup := fun _ _ _ => trivial
  defined := by
    intro w e i name value x v m hRuns hForm hName _ _ hHolds _
    refine ⟨w, le_rfl, ?_⟩
    rcases hRuns with hNew | ⟨rfl, hNames⟩
    · exact hHolds.bind_new hNew x v
    · exact hHolds.bind_own (hNames (Expr.mem_definedNames hForm hName)) v
  minted := by
    intro w e i params forms formals m _ _ _ _ hHolds
    exact ⟨w, le_rfl, ⟨hHolds.size_le, hHolds.others, hHolds.own⟩, trivial⟩
  called := by
    intro w proc c body rest args m d _ _ _ _ _ hHolds
    exact ⟨w, le_rfl, .inl hHolds.size_le, hHolds.extend _⟩

section Evaluation
variable (c : Ceiling) (d : Int) (m : Machine)

/-- Of all scopes that were there before, evaluation changes at most the one it
runs in, and there only the names that the expression defines. -/
theorem evalAt_confined (e : Expr) (s : ScopeId) :
    m.store.Confined s e.definedNames (Outcome.machine (evalAt c d e s m)).store := by
  have hPreserved := Invariant.confined_preserved s e.definedNames m.store
  have hEnds : (Invariant.confined s e.definedNames m.store).Ends .always (evalAt c d e s m) :=
    hPreserved.evalWithin c _ (.inr ⟨rfl, List.Subset.refl _⟩) (.refl s e.definedNames m.store)
  obtain ⟨_, _, hHolds⟩ := hEnds.exists_holds
  exact hHolds

/-- A call has no current scope that it could change: the address that is next
in line stands for it here, and no name is defined there. -/
theorem apply_confined (proc : Expr) (args : List Expr) :
    m.store.Confined m.store.scopes.size []
      (Outcome.machine ((Level.under c d).apply proc args m)).store := by
  have hPreserved := Invariant.confined_preserved m.store.scopes.size [] m.store
  have hEnds : (Invariant.confined m.store.scopes.size [] m.store).Ends .always
      ((Level.under c d).apply proc args m) :=
    hPreserved.apply c _ d trivial (fun _ _ => trivial) (.refl _ _ m.store)
  obtain ⟨_, _, hHolds⟩ := hEnds.exists_holds
  exact hHolds

/-- A call works in scopes of its own and changes none that existed before. -/
theorem scope_apply (proc : Expr) (args : List Expr) {i : ScopeId}
    (hi : i < m.store.scopes.size) :
    (Outcome.machine ((Level.under c d).apply proc args m)).store.scope i = m.store.scope i :=
  (apply_confined c d m proc args).others i hi (Nat.ne_of_lt hi)

/-- An evaluation in a scope changes no other scope, and its own only under the
names that it defines itself. Calls change no scope there was before them. -/
theorem effects_confined (e : Expr) (s : ScopeId) :
    let after := (Outcome.machine (evalAt c d e s m)).store
    (∀ i < m.store.scopes.size, i ≠ s → after.scope i = m.store.scope i) ∧
    (s < m.store.scopes.size →
      (after.scope s).outer = (m.store.scope s).outer ∧
      (after.scope s).reserved = (m.store.scope s).reserved ∧
      (∀ x, Table.has (m.store.scope s).vars x = true → Table.has (after.scope s).vars x = true) ∧
      ∀ x ∉ e.definedNames,
        Table.get? (after.scope s).vars x = Table.get? (m.store.scope s).vars x) ∧
    (e.definedNames = [] → ∀ i < m.store.scopes.size, after.scope i = m.store.scope i) ∧
    ∀ (proc : Expr) (args : List Expr), ∀ i < m.store.scopes.size,
      (Outcome.machine ((Level.under c d).apply proc args m)).store.scope i =
        m.store.scope i := by
  intro after
  have hConfined : m.store.Confined s e.definedNames after := evalAt_confined c d m e s
  refine ⟨hConfined.others, ?_, ?_, fun proc args i hi => scope_apply c d m proc args hi⟩
  · intro hScope
    obtain ⟨writes, hNames, hWritten⟩ := hConfined.own hScope
    rw [hWritten]
    refine ⟨rfl, rfl, fun x hx => Scope.has_write hx writes, fun x hx => ?_⟩
    refine Scope.get?_write (fun p hp hName => ?_) _
    exact hx (hName ▸ hNames p hp)
  · intro hNone i hi
    by_cases hOwn : i = s
    · obtain ⟨writes, hNames, hWritten⟩ := hConfined.own (hOwn ▸ hi)
      have hEmpty : writes = [] := by
        rw [hNone] at hNames
        exact List.eq_nil_iff_forall_not_mem.mpr fun p hp => List.not_mem_nil (hNames p hp)
      rw [hOwn, hWritten, hEmpty, Scope.write_nil]
    · exact hConfined.others i hi hOwn

end Evaluation

/-- Defining one name leaves another as it is. -/
theorem effects_confined_define :
    let x : Symbol := ⟨"x", by decide⟩
    let y : Symbol := ⟨"y", by decide⟩
    let m : Machine := { store := Store.empty.bind 0 x (.string "old") }
    let e := Expr.node (.symbol Keyword.define.symbol) [.leaf (.symbol y), .string "new"]
    let after := (Outcome.machine (evalAt (.exact 1) 0 e 0 m)).store
    (Table.has (after.scope 0).vars y = true ∧ Table.has (m.store.scope 0).vars y = false) ∧
      Table.get? (after.scope 0).vars x = Table.get? (m.store.scope 0).vars x :=
  ⟨by decide, ((effects_confined (.exact 1) 0 _ _ 0).2.1 (by decide)).2.2.2 _ (by decide)⟩

end PlotLang
