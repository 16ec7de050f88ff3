import Mathlib.Logic.Equiv.Basic
import PlotLang.Proofs.Application
import PlotLang.Proofs.Protection
import PlotLang.Proofs.Renaming.Message
import PlotLang.Proofs.Renaming.Store

/-! Evaluation does not depend on the names that a program chooses. Exchange the
names in an expression and in every scope, values and parameters included, and
the evaluation has the same outcome with the names exchanged. Only keywords and
built-in names have a meaning of their own, so these must stay. Addresses are
not touched, and nothing is asked of the store. -/
namespace PlotLang

open EStateM (Result)

/-- A permutation of names that leaves the keywords and the built-in names
alone. -/
structure NamePermutation where
  perm : Equiv.Perm Symbol
  keyword : ∀ k : Keyword, perm k.symbol = k.symbol
  builtin : ∀ x ∈ Table.keys Store.initialBindings, perm x = x

namespace NamePermutation
variable (p : NamePermutation)

/-- The permutation as a renaming: scopes and procedures keep their addresses
and identities. -/
def toRenaming : Renaming where
  symbol := p.perm
  scope := id
  identity := id
  injective := p.perm.injective
  keyword := p.keyword
  listName := p.builtin _ (by decide +kernel)

@[simp] theorem symbol_toRenaming (x : Symbol) : p.toRenaming.symbol x = p.perm x := rfl

@[simp] theorem scope_toRenaming (s : ScopeId) : p.toRenaming.scope s = s := rfl

@[simp] theorem identity_toRenaming (n : Nat) : p.toRenaming.identity n = n := rfl

end NamePermutation

/-- A datum refers to nothing. -/
theorem Atom.rename_of_isDatum {a : Atom} (ha : a.isDatum = true) (r : Renaming) :
    a.rename r = a := by
  cases a with
  | symbol x | lambda c => cases ha
  | _ => rfl

namespace Scope
variable (p : NamePermutation) (sc : Scope)

@[simp] theorem outer_permute : (sc.rename p.toRenaming).outer = sc.outer := by
  cases h : sc.outer <;> simp [rename, h]

theorem permute_empty : ({} : Scope).rename p.toRenaming = {} := rfl

end Scope

namespace Store
variable (p : NamePermutation) (st : Store)

/-- The store with the names in all its scopes permuted: those that are bound,
those that the host registered, and those in the values. -/
def permute : Store where
  scopes := st.scopes.map (Scope.rename p.toRenaming)
  closures := st.closures

@[simp] theorem size_permute : (st.permute p).scopes.size = st.scopes.size := by
  simp [permute]

@[simp] theorem closures_permute : (st.permute p).closures = st.closures := rfl

@[simp] theorem scope_permute (s : ScopeId) :
    (st.permute p).scope s = (st.scope s).rename p.toRenaming := by
  cases h : st.scopes[s]? with
  | none => simp [scope, permute, h, Scope.permute_empty]
  | some sc => simp [scope, permute, h]

/-- The induction is on the scopes that may still follow. -/
theorem chain_permute (s : ScopeId) : (st.permute p).chain s = st.chain s := by
  have hWithin (n : Nat) (s : ScopeId) :
      (st.permute p).chainWithin n s = st.chainWithin n s := by
    induction n generalizing s with
    | zero => rfl
    | succ n ih => simp only [chainWithin, scope_permute, Scope.outer_permute, ih]
  exact hWithin (s + 1) s

/-- A permuted name stands for the permuted value. -/
theorem lookup?_permute (s : ScopeId) (x : Symbol) :
    (st.permute p).lookup? s (p.perm x) = (st.lookup? s x).map (Expr.rename p.toRenaming) := by
  have hBinds (i : ScopeId) : Table.has ((st.permute p).scope i).vars (p.perm x) =
      Table.has (st.scope i).vars x := by
    rw [scope_permute]
    exact Scope.has_rename p.toRenaming (st.scope i) x
  have hFind : (st.permute p).find? s (p.perm x) = st.find? s x := by
    simp only [find?, chain_permute, hBinds]
  unfold lookup?
  rw [hFind]
  cases st.find? s x with
  | none => rfl
  | some i =>
      simp only [Option.bind_some]
      rw [scope_permute]
      exact Scope.get?_rename p.toRenaming (st.scope i) x

theorem isReserved_permute (s : ScopeId) (x : Symbol) :
    (st.permute p).isReserved s (p.perm x) = st.isReserved s x := by
  unfold isReserved rootOf
  rw [chain_permute, scope_permute]
  simp [Scope.rename]

/-- Binding and permuting may be exchanged. -/
theorem permute_bind (s : ScopeId) (x : Symbol) (v : Expr) :
    (st.bind s x v).permute p = (st.permute p).bind s (p.perm x) (v.rename p.toRenaming) := by
  simp only [permute, bind, Store.mk.injEq, and_true]
  apply Array.ext
  · simp
  · intro i hi _
    by_cases hOwn : s = i
    · simp [Array.getElem_modify, hOwn, Scope.rename_put]
    · simp [Array.getElem_modify, hOwn]

theorem permute_extend (sc : Scope) :
    (st.extend sc).permute p = (st.permute p).extend (sc.rename p.toRenaming) := by
  simp [permute, extend]

/-- A store is known from its scopes. -/
theorem eq_of_scope {st st' : Store} (hSize : st.scopes.size = st'.scopes.size)
    (hScope : ∀ i, st.scope i = st'.scope i) (hClosures : st.closures = st'.closures) :
    st = st' := by
  obtain ⟨scopes, closures⟩ := st
  obtain ⟨scopes', closures'⟩ := st'
  have hScopes : scopes = scopes' := by
    apply Array.ext hSize
    intro i hi hi'
    simpa [scope, hi, hi'] using hScope i
  rw [Store.mk.injEq]
  exact ⟨hScopes, hClosures⟩

/-- The names that the initial store binds and registers stay, and its values
are data. -/
theorem permute_initial : initial.permute p = initial := by
  have hRoot : (initial.scope root).rename p.toRenaming = initial.scope root := by
    have hNames : (Table.keys initialBindings).map p.perm = Table.keys initialBindings :=
      (List.map_congr_left p.builtin).trans (List.map_id _)
    have hBindings : initialBindings.map (fun b => (p.perm b.1, b.2.rename p.toRenaming)) =
        initialBindings := by
      refine (List.map_congr_left fun b hb => Prod.ext ?_ ?_).trans (List.map_id _)
      · exact p.builtin b.1 (List.mem_map_of_mem hb)
      · have hBound : b ∈ (initial.scope root).vars := by
          rw [scope_initial_root]
          exact hb
        obtain ⟨a, ha, hLeaf⟩ := (initial_spec.2.2 root).2 b hBound
        show b.2.rename p.toRenaming = b.2
        rw [hLeaf, Expr.rename_leaf, Atom.rename_of_isDatum ha]
    rw [scope_initial_root]
    simp only [Scope.rename, NamePermutation.symbol_toRenaming, hBindings]
    exact congrArg (Scope.mk initialBindings none) hNames
  refine eq_of_scope (initial.size_permute p) (fun i => ?_) (initial.closures_permute p)
  rw [scope_permute]
  by_cases hi : i = root
  · rw [hi, hRoot]
  · rw [scope_initial_of_ne hi, Scope.permute_empty]

end Store

/-- Two evaluations that differ in names only. -/
def Correspondence.ofNames (p : NamePermutation) : Correspondence Timeless where
  names := p.toRenaming
  admits := fun _ _ => True
  runs := fun _ _ _ => True
  machine := fun _ m m' => m'.store = m.store.permute p
  error := fun e e' => e' = e.rename p.toRenaming
  excused := fun _ => False

/-- A permutation of names that fixes keywords and builtin names commutes with
every step. -/
theorem Correspondence.ofNames_lawful (p : NamePermutation) : (ofNames p).Lawful where
  toValueLaws := .trivial
  runs_mono := fun _ _ => trivial
  runs_literal := fun _ _ => trivial
  runs_special := fun _ _ _ _ => trivial
  runs_call := fun _ _ _ => trivial
  error_rename := fun _ => rfl
  machine_logged := fun hMachine _ => hMachine
  lookup := by
    intro w e s m m' _ hMachine x
    rw [show m'.store = _ from hMachine]
    exact m.store.lookup?_permute p s x
  admits_lookup := fun _ _ _ _ _ => trivial
  reserved := by
    intro w e s m m' _ hMachine x
    rw [show m'.store = _ from hMachine]
    exact m.store.isReserved_permute p s x
  defined := by
    intro w e s name value x v m m' _ _ _ _ _ hMachine _
    refine ⟨w, le_rfl, ?_⟩
    simp only [ofNames, Machine.defined, show m'.store = _ from hMachine]
    exact (m.store.permute_bind p s x v).symm
  minted := by
    intro w e s params forms formals m m' _ _ _ _ hMachine
    have hStore : m'.store = m.store.permute p := hMachine
    refine ⟨by simp [ofNames, hStore], w, le_rfl, ?_, trivial⟩
    simp only [ofNames, Machine.minted, hStore]
    rfl
  called := by
    intro w proc c body rest args m m' d d' _ _ _ _ _ hMachine
    have hStore : m'.store = m.store.permute p := hMachine
    refine ⟨by simp [ofNames, hStore], w, le_rfl, trivial, ?_⟩
    simp only [ofNames, Machine.called, hStore]
    rw [Store.permute_extend, Scope.rename_ofCall]

namespace Outcome

def permute (p : NamePermutation) : Result EvalError Store Expr → Result EvalError Store Expr
  | .ok v st => .ok (v.rename p.toRenaming) (st.permute p)
  | .error e st => .error (e.rename p.toRenaming) (st.permute p)

/-- Results that correspond are permuted copies of each other, values and errors
alike. -/
theorem settle_eq_of_ofNames {p : NamePermutation} {w : Timeless}
    {x y : Result EvalError Machine Expr}
    (h : (Correspondence.ofNames p).Results w (Correspondence.ofNames p).Same x y) :
    settle y = permute p (settle x) := by
  cases h with
  | ok _ hMachine hSame =>
      obtain ⟨rfl, _⟩ := hSame
      exact congrArg (Result.ok _) hMachine
  | error _ hMachine hError =>
      have hErrors : _ = EvalError.rename _ _ := hError
      rw [hErrors]
      exact congrArg (Result.error _) hMachine
  | excused hExcused => exact hExcused.elim

end Outcome

/-- Evaluation commutes with every permutation of names that keeps keywords and
built-in names: the value, the error and the store come out with the names
permuted. An error keeps its class, and one that is no error of the language
quotes no name. A new session is its own image, so the law holds of whole
sessions. -/
theorem evalAt_permute (p : NamePermutation) (c : Ceiling) (d : Int) (e : Expr) (s : ScopeId)
    (st : Store) (log log' : Array LogRecord) :
    Outcome.settle (evalAt c d (e.rename p.toRenaming) s { store := st.permute p, log := log' }) =
      Outcome.permute p (Outcome.settle (evalAt c d e s { store := st, log })) ∧
    Store.initial.permute p = Store.initial ∧
    ∀ error : EvalError, (error.rename p.toRenaming).kind? = error.kind? ∧
      (error.kind? = none → error.rename p.toRenaming = error) := by
  have hC := Correspondence.ofNames_lawful p
  have hExceed (w : Timeless) : (Correspondence.ofNames p).Agree w (Correspondence.ofNames p).Same
      (exceed c) (exceed c) :=
    fun _ _ hMachine => .error (le_refl w) hMachine rfl
  have hResults := hC.evalWithin (w := .always) (e := e) (s := s) hExceed
    (c.levels + 1 - d).toNat trivial { store := st, log } { store := st.permute p, log := log' } rfl
  refine ⟨Outcome.settle_eq_of_ofNames hResults, Store.permute_initial p, fun error => ?_⟩
  refine ⟨error.kind?_rename _, fun hNone => ?_⟩
  cases error with
  | number fault => rfl
  | _ => cases hNone

/-- Two names exchanged in a definition whose value refers to the other name. -/
theorem evalAt_permute_exchange :
    let x : Symbol := ⟨"x", by decide⟩
    let y : Symbol := ⟨"y", by decide⟩
    let st := Store.empty.bind 0 y (.string "a")
    let st' := Store.empty.bind 0 x (.string "a")
    ∃ p : NamePermutation, p.perm x = y ∧ p.perm y = x ∧ st' = st.permute p ∧
      Outcome.settle (evalAt (.exact 1) 0 (.special .define [.symbol y, .symbol x]) 0
          { store := st' }) =
        Outcome.permute p (Outcome.settle
          (evalAt (.exact 1) 0 (.special .define [.symbol x, .symbol y]) 0 { store := st })) ∧
      evalAt (.exact 1) 0 (.special .define [.symbol x, .symbol y]) 0 { store := st } =
        .ok (.string "a") { store := st.bind 0 x (.string "a"), log := #[.defined x] } := by
  intro x y st st'
  let p : NamePermutation :=
    { perm := Equiv.swap x y
      keyword := by
        intro k
        cases k <;> decide +kernel
      builtin := by decide +kernel }
  have hx : p.perm x = y := Equiv.swap_apply_left x y
  have hy : p.perm y = x := Equiv.swap_apply_right x y
  have hEmpty : Store.empty.permute p = Store.empty := by
    simp [Store.permute, Store.empty, Scope.permute_empty]
  have hStore : st' = st.permute p := by
    rw [Store.permute_bind, hEmpty, hy, Expr.rename_string]
  refine ⟨p, hx, hy, hStore, ?_, rfl⟩
  have hCommutes := (evalAt_permute p (.exact 1) 0 (.special .define [.symbol x, .symbol y]) 0 st
    #[] #[]).1
  rw [← hStore] at hCommutes
  rw [← hCommutes]
  simp [Expr.special, Expr.symbol, Atom.rename, p.keyword, hx, hy]

end PlotLang
