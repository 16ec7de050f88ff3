import Mathlib.Order.Monotone.Basic
import PlotLang.Proofs.Machine
import PlotLang.Proofs.Renaming.View

/-! Stores under a renaming. The scopes of one store stand in another store at
new addresses, with all that they bind renamed. The other store may hold more
scopes; nothing refers to these, so names mean the same in both. Addresses must
stay in order, since the way outward is along falling addresses. -/
namespace PlotLang

def Scope.rename (r : Renaming) (sc : Scope) : Scope where
  vars := sc.vars.map fun p => (r.symbol p.1, p.2.rename r)
  outer := sc.outer.map r.scope
  reserved := sc.reserved.map r.symbol

namespace Scope
variable (r : Renaming)

/-- Renaming is injective on names, so a look-up finds the renamed value and no
other. -/
theorem get?_rename (sc : Scope) (x : Symbol) :
    Table.get? (sc.rename r).vars (r.symbol x) = (Table.get? sc.vars x).map (Expr.rename r) :=
  Table.get?_map r.injective (Expr.rename r) sc.vars x

theorem has_rename (sc : Scope) (x : Symbol) :
    Table.has (sc.rename r).vars (r.symbol x) = Table.has sc.vars x := by
  simp [Table.has, get?_rename]

/-- A value is put in the same place of the renamed table. -/
theorem rename_put (sc : Scope) (x : Symbol) (v : Expr) :
    ({ sc with vars := Table.put x v sc.vars } : Scope).rename r =
      { sc.rename r with vars := Table.put (r.symbol x) (v.rename r) (sc.rename r).vars } := by
  simp [rename, Table.put_map r.injective]

/-- The parameters are bound one by one, and the induction is on them. -/
theorem rename_ofCall (c : Closure) (args : List Expr) :
    (ofCall c args).rename r = ofCall (c.rename r) (args.map (Expr.rename r)) := by
  have hVars (bindings : List (Symbol × Expr)) (vars : List (Symbol × Expr)) :
      (bindings.foldl (fun t p => Table.put p.1 p.2 t) vars).map
          (fun p => (r.symbol p.1, p.2.rename r)) =
        (bindings.map fun p => (r.symbol p.1, p.2.rename r)).foldl
          (fun t p => Table.put p.1 p.2 t) (vars.map fun p => (r.symbol p.1, p.2.rename r)) := by
    induction bindings generalizing vars with
    | nil => rfl
    | cons p bindings ih =>
        rw [List.foldl_cons, ih, List.map_cons, List.foldl_cons,
          ← Table.put_map r.injective (Expr.rename r)]
  have hZip : (c.rename r).formals.zip (args.map (Expr.rename r)) =
      (c.formals.zip args).map fun p => (r.symbol p.1, p.2.rename r) := by
    rw [Closure.rename, List.zip_map]
    rfl
  simp only [ofCall, hZip, rename, hVars]
  rfl

end Scope

/-- Every scope of the first store is in the second one, renamed. -/
structure Store.Moved (r : Renaming) (st st' : Store) : Prop where
  scope : ∀ i, st'.scope (r.scope i) = (st.scope i).rename r

namespace Store.Moved
variable {r : Renaming} {st st' : Store} (hMoved : Moved r st st')
include hMoved

/-- Binding on both sides keeps the stores related, for scopes that are there. -/
theorem bind (hInjective : Function.Injective r.scope) {s : ScopeId} (hScope : s < st.scopes.size)
    (hScope' : r.scope s < st'.scopes.size) (x : Symbol) (v : Expr) :
    Moved r (st.bind s x v) (st'.bind (r.scope s) (r.symbol x) (v.rename r)) where
  scope := by
    intro i
    by_cases hOwn : s = i
    · subst hOwn
      rw [scope_bind_self hScope, scope_bind_self hScope', hMoved.scope, Scope.rename_put]
    · rw [scope_bind_of_ne hOwn, scope_bind_of_ne (hInjective.ne hOwn), hMoved.scope]

/-- New scopes must correspond to each other. -/
theorem extend (hInjective : Function.Injective r.scope)
    (hSize : st'.scopes.size = r.scope st.scopes.size) (sc : Scope) :
    Moved r (st.extend sc) (st'.extend (sc.rename r)) where
  scope := by
    intro i
    rw [scope_extend, scope_extend, hSize]
    by_cases hNew : i = st.scopes.size
    · rw [if_pos hNew, if_pos (congrArg r.scope hNew)]
    · rw [if_neg hNew, if_neg (hInjective.ne hNew), hMoved.scope]

variable (hOrder : StrictMono r.scope) (hOuter : ∀ i o, (st.scope i).outer = some o → o < i)
include hOrder hOuter

/-- The way outward is the same, as long as it is not cut short: the induction
is on the scopes that may still follow. -/
theorem chainWithin {n n' : Nat} {s : ScopeId} (hLength : s < n) (hLength' : r.scope s < n') :
    st'.chainWithin n' (r.scope s) = (st.chainWithin n s).map r.scope := by
  induction n generalizing n' s with
  | zero => cases hLength
  | succ n ih =>
      obtain ⟨n', rfl⟩ := Nat.exists_eq_succ_of_ne_zero (Nat.ne_zero_of_lt hLength')
      have hAround : (st'.scope (r.scope s)).outer = (st.scope s).outer.map r.scope := by
        rw [hMoved.scope]
        rfl
      unfold Store.chainWithin
      rw [hAround, List.map_cons]
      cases hCase : (st.scope s).outer with
      | none => rfl
      | some o =>
          have hLess : o < n := Nat.lt_of_lt_of_le (hOuter s o hCase) (Nat.le_of_lt_succ hLength)
          have hLess' : r.scope o < n' :=
            Nat.lt_of_lt_of_le (hOrder (hOuter s o hCase)) (Nat.le_of_lt_succ hLength')
          exact congrArg _ (ih hLess hLess')

/-- The way outwards is the renamed way. -/
theorem chain (s : ScopeId) : st'.chain (r.scope s) = (st.chain s).map r.scope :=
  hMoved.chainWithin hOrder hOuter (Nat.lt_succ_self s) (Nat.lt_succ_self _)

/-- A renamed name stands for the renamed value. -/
theorem lookup? (s : ScopeId) (x : Symbol) :
    st'.lookup? (r.scope s) (r.symbol x) = (st.lookup? s x).map (Expr.rename r) := by
  have hFind : st'.find? (r.scope s) (r.symbol x) = (st.find? s x).map r.scope := by
    have hBinds : (fun i => Table.has (st'.scope i).vars (r.symbol x)) ∘ r.scope =
        fun i => Table.has (st.scope i).vars x := by
      funext i
      simp only [Function.comp_apply, hMoved.scope, Scope.has_rename]
    unfold Store.find?
    rw [hMoved.chain hOrder hOuter, List.find?_map, hBinds]
  unfold Store.lookup?
  rw [hFind]
  cases st.find? s x with
  | none => rfl
  | some i =>
      simp only [Option.map_some, Option.bind_some]
      rw [hMoved.scope, Scope.get?_rename]

/-- A name is reserved on both sides or on neither. -/
theorem isReserved (s : ScopeId) (x : Symbol) :
    st'.isReserved (r.scope s) (r.symbol x) = st.isReserved s x := by
  have hRoot : st'.rootOf (r.scope s) = r.scope (st.rootOf s) := by
    unfold Store.rootOf
    rw [hMoved.chain hOrder hOuter, List.getLast?_map]
    cases (st.chain s).getLast? <;> rfl
  unfold Store.isReserved
  rw [hRoot, hMoved.scope]
  simp [Scope.rename, r.injective.eq_iff]

end Store.Moved
end PlotLang
