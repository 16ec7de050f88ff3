import PlotLang.Proofs.Protection

/-! The history of scopes. A host works on scopes by operations: it goes into a
new scope and back, it defines and binds names in the current scope, and it
registers names in the root. A store keeps what these operations have led to.
Here they are put on record instead, as what was stored where and in which order,
and all that a store answers is read off this record: the value of a name, whether
it may be defined, and the text of a scope. -/
namespace PlotLang

open EStateM (Result)

inductive ScopeOp where
  /-- goes into a new scope inside the current one -/
  | push
  /-- goes back to the scope around the current one -/
  | pop
  /-- defines a name in the current scope -/
  | define (name : Binder) (v : Expr)
  /-- binds a parameter in the current scope -/
  | bind (x : Symbol) (v : Expr)
  /-- registers a name in the root -/
  | register (x : Symbol) (v : Expr)
  /-- registers names in turn -/
  | update (entries : List (Binder × Expr))

/-- A store with a current scope in it. -/
structure Place where
  store : Store
  scope : ScopeId

def Place.fresh : Place := { store := .empty, scope := Store.root }

namespace ScopeOp

def perform (p : Place) : ScopeOp → Result (ScopeError ⊕ EvalError) Place Unit
  | .push => .ok () { store := (p.store.push p.scope).2, scope := (p.store.push p.scope).1 }
  | .pop =>
    match p.store.outerOf p.scope with
    | .ok o => .ok () { p with scope := o }
    | .error e => .error (.inl e) p
  | .define name v =>
    match p.store.defineAs p.scope name v with
    | .ok store => .ok () { p with store }
    | .error e => .error (.inr e) p
  | .bind x v => .ok () { p with store := p.store.bind p.scope x v }
  | .register x v => .ok () { p with store := p.store.register p.scope x v }
  | .update entries =>
    match p.store.registerAll p.scope entries with
    | .ok () store => .ok () { p with store }
    | .error e store => .error (.inr e) { p with store }

/-- The place after an operation, whether it fails or not. -/
def next (p : Place) (op : ScopeOp) : Place :=
  match op.perform p with
  | .ok _ p' => p'
  | .error _ p' => p'

/-- The scope that an operation may write in. -/
def target? (p : Place) : ScopeOp → Option ScopeId
  | .push | .pop => none
  | .define _ _ | .bind _ _ => some p.scope
  | .register _ _ | .update _ => some Store.root

end ScopeOp

def Place.after (ops : List ScopeOp) : Place := ops.foldl ScopeOp.next .fresh

/-- The record of operations. Scopes have numbers in the order in which they were
opened, and the root has the first one. -/
structure History where
  /-- the scopes from the current one outward -/
  path : List ScopeId := [Store.root]
  /-- how many scopes there are -/
  opened : Nat := 1
  /-- what was stored under which name in which scope, oldest first -/
  stored : List (ScopeId × Symbol × Expr) := []
  /-- the names that were registered -/
  registered : List Symbol := []

/-- The entries before the first that is named by no symbol. -/
def leadingEntries : List (Binder × Expr) → List (Symbol × Expr)
  | (.symbol x, v) :: rest => (x, v) :: leadingEntries rest
  | _ => []

namespace History

/-- Records that a value was stored under a name in a scope. -/
def store (h : History) (i : ScopeId) (x : Symbol) (v : Expr) : History :=
  { h with stored := h.stored ++ [(i, x, v)] }

/-- Records that a value was stored under a name in the root, for good. -/
def register (h : History) (x : Symbol) (v : Expr) : History :=
  { h.store Store.root x v with registered := h.registered ++ [x] }

def record (h : History) : ScopeOp → History
  | .push => { h with path := h.opened :: h.path, opened := h.opened + 1 }
  | .pop =>
    match h.path with
    | _ :: outer :: rest => { h with path := outer :: rest }
    | _ => h
  | .define (.symbol x) v =>
    if x ∈ h.registered then h else h.store (h.path.headD Store.root) x v
  | .define (.other _) _ => h
  | .bind x v => h.store (h.path.headD Store.root) x v
  | .register x v => h.register x v
  | .update entries => (leadingEntries entries).foldl (fun h entry => h.register entry.1 entry.2) h

def of (ops : List ScopeOp) : History := ops.foldl record {}

/-- What was stored in a scope, oldest first. -/
def storedIn (h : History) (i : ScopeId) : List (Symbol × Expr) :=
  (h.stored.filter fun entry => entry.1 == i).map Prod.snd

/-- The names that a scope was given, each as often as something was stored
under it. -/
def given (h : History) (i : ScopeId) : List Symbol := Table.keys (h.storedIn i)

/-- The value that was last stored under a name in a scope. -/
def last? (h : History) (i : ScopeId) (x : Symbol) : Option Expr :=
  Table.get? (h.storedIn i).reverse x

/-- What the text of a scope has to show: the names that the scope was given, in
the order in which it got them and without the registered names in the root, each
once and with the value last stored. -/
structure Shows (h : History) (i : ScopeId) (shown : Table Symbol Expr) : Prop where
  names : Table.keys shown =
    (h.given i).eraseDups.filter fun x => ¬(i = Store.root ∧ x ∈ h.registered)
  distinct : (Table.keys shown).Nodup
  values : ∀ entry ∈ shown, h.last? i entry.1 = some entry.2

/-- A name has no last value exactly if it was never given one. -/
theorem last?_eq_none_iff {h : History} {i : ScopeId} {x : Symbol} :
    h.last? i x = none ↔ x ∉ h.given i := by
  rw [last?, Table.get?_eq_none_iff, given, Table.keys, List.map_reverse, List.mem_reverse]
  rfl

/-- Storing adds to the end of the record of its scope. -/
theorem storedIn_store_self (h : History) (i : ScopeId) (x : Symbol) (v : Expr) :
    (h.store i x v).storedIn i = h.storedIn i ++ [(x, v)] := by
  simp [storedIn, store]

/-- The records of other scopes do not change. -/
theorem storedIn_store_of_ne (h : History) {i j : ScopeId} (hOther : j ≠ i) (x : Symbol)
    (v : Expr) : (h.store i x v).storedIn j = h.storedIn j := by
  simp [storedIn, store, Ne.symm hOther]

end History

namespace Store

section Outward
variable {st : Store} (hOuter : ∀ i o, (st.scope i).outer = some o → o < i)
include hOuter

/-- The way outward from a scope depends only on which scopes are around it. These
are older, so it has an end, and it makes no difference how many more scopes it
could have. -/
theorem chainWithin_congr {st' : Store} {n n' : Nat} {s : ScopeId}
    (h : ∀ i ≤ s, (st'.scope i).outer = (st.scope i).outer) (hn : s < n) (hn' : s < n') :
    st'.chainWithin n' s = st.chainWithin n s := by
  induction n generalizing n' s with
  | zero => cases hn
  | succ n ih =>
      obtain ⟨n', rfl⟩ := Nat.exists_eq_add_one_of_ne_zero (Nat.ne_zero_of_lt hn')
      rw [chainWithin, chainWithin, h s (Nat.le_refl s)]
      cases hLink : (st.scope s).outer with
      | none => rfl
      | some o =>
          have hOlder := hOuter s o hLink
          have hRest := ih (fun i hi => h i (Nat.le_trans hi (Nat.le_of_lt hOlder)))
            (Nat.lt_of_lt_of_le hOlder (Nat.le_of_lt_succ hn))
            (Nat.lt_of_lt_of_le hOlder (Nat.le_of_lt_succ hn'))
          exact congrArg (s :: ·) hRest

theorem chain_congr {st' : Store} {s : ScopeId}
    (h : ∀ i ≤ s, (st'.scope i).outer = (st.scope i).outer) : st'.chain s = st.chain s :=
  chainWithin_congr hOuter h (Nat.lt_succ_self s) (Nat.lt_succ_self s)

/-- The chain of a scope begins with the scope itself and goes on outwards. -/
theorem chain_of_outer {s o : ScopeId} (hLink : (st.scope s).outer = some o) :
    st.chain s = s :: st.chain o := by
  rw [chain, chainWithin, hLink]
  exact congrArg (s :: ·)
    (chainWithin_congr hOuter (fun _ _ => rfl) (Nat.lt_succ_self o) (hOuter s o hLink))

end Outward

theorem chain_of_outer_none {st : Store} {s : ScopeId} (hLink : (st.scope s).outer = none) :
    st.chain s = [s] := by
  rw [chain, chainWithin, hLink]

/-- A name has the value of the first scope on the way outward that binds it. -/
theorem lookup?_eq_findSome? (st : Store) (s : ScopeId) (x : Symbol) :
    st.lookup? s x = (st.chain s).findSome? fun i => Table.get? (st.scope i).vars x := by
  rw [lookup?, find?]
  induction st.chain s with
  | nil => rfl
  | cons i rest ih =>
      rw [List.find?_cons, List.findSome?_cons]
      cases hValue : Table.get? (st.scope i).vars x with
      | none => simpa [Table.has, hValue] using ih
      | some v => simp [Table.has, hValue]

/-- Registering a name changes the root only. -/
theorem scope_register_of_ne {st : Store} {s i : ScopeId} (h : st.rootOf s ≠ i) (x : Symbol)
    (v : Expr) : (st.register s x v).scope i = st.scope i := by
  rw [← scope_bind_of_ne h st x v]
  simp [register, scope, Array.getElem?_modify, h]

/-- Registering a name reserves it and keeps what was reserved. -/
theorem mem_reserved_register {st : Store} {s : ScopeId} (h : st.rootOf s < st.scopes.size)
    (x : Symbol) (v : Expr) (y : Symbol) :
    y ∈ ((st.register s x v).scope (st.rootOf s)).reserved ↔
      y ∈ (st.scope (st.rootOf s)).reserved ∨ y = x := by
  rw [scope_register_self h x v, ← st.reserved_bind (st.rootOf s) x v]
  split
  · next hKnown =>
      refine ⟨.inl, ?_⟩
      rintro (hOld | rfl)
      · exact hOld
      · simpa using hKnown
  · simp

end Store

/-- A place is as its history says: the current scope is where the path begins,
each scope has the variables that were stored in it, and the root knows which
names were registered. -/
structure Place.Matches (p : Place) (h : History) : Prop where
  inUse : p.scope < p.store.scopes.size
  size : p.store.scopes.size = h.opened
  chain : p.store.chain p.scope = h.path
  outer_eq_none : ∀ i < p.store.scopes.size, (p.store.scope i).outer = none ↔ i = Store.root
  outer_lt : ∀ i o, (p.store.scope i).outer = some o → o < i
  vars : ∀ i, (p.store.scope i).vars =
    (h.storedIn i).foldl (fun t entry => Table.put entry.1 entry.2 t) []
  registered : ∀ x, x ∈ (p.store.scope Store.root).reserved ↔ x ∈ h.registered
  unreserved : ∀ i, i ≠ Store.root → (p.store.scope i).reserved = []

namespace Place.Matches
variable {p : Place} {h : History}

/-- A fresh store has a root without names, and nothing has been recorded. -/
theorem fresh : Place.fresh.Matches {} where
  inUse := Nat.one_pos
  size := rfl
  chain := rfl
  outer_eq_none := by
    intro i hi
    have hRoot : i = Store.root := Nat.lt_one_iff.mp hi
    exact iff_of_true (by rw [Place.fresh, Store.scope_empty]) hRoot
  outer_lt := by
    intro i o hLink
    rw [Place.fresh, Store.scope_empty] at hLink
    cases hLink
  vars := by
    intro i
    rw [Place.fresh, Store.scope_empty]
    rfl
  registered := by
    intro x
    rw [Place.fresh, Store.scope_empty]
  unreserved := by
    intro i _
    rw [Place.fresh, Store.scope_empty]

/-- All scopes that were pushed lie in the one root. -/
theorem rootOf (hMatches : p.Matches h) : p.store.rootOf p.scope = Store.root := by
  have hRooted : p.store.Rooted :=
    ⟨fun i hi => Store.chainWithin_spec hMatches.outer_eq_none hMatches.outer_lt
      (Nat.lt_succ_self i) hi, hMatches.outer_eq_none⟩
  exact hRooted.rootOf hMatches.inUse

theorem root_lt_size (hMatches : p.Matches h) : Store.root < p.store.scopes.size :=
  Nat.lt_of_le_of_lt (Nat.zero_le p.scope) hMatches.inUse

/-- The names that cannot be defined are those that were registered. -/
theorem isReserved_iff (hMatches : p.Matches h) (x : Symbol) :
    p.store.isReserved p.scope x = true ↔ x ∈ h.registered := by
  rw [Store.isReserved, hMatches.rootOf, List.contains_iff_mem, hMatches.registered]

/-- The scope that is current is the innermost one of the path. -/
theorem headD_path (hMatches : p.Matches h) (s : ScopeId) : h.path.headD s = p.scope := by
  rw [← hMatches.chain, Store.chain, Store.chainWithin]
  rfl

/-- Storing a value under a name changes the variables of one scope. The root may
learn a name besides. -/
theorem written (hMatches : p.Matches h) {st : Store} {t : ScopeId} {x : Symbol} {v : Expr}
    {names : List Symbol} (hSize : st.scopes.size = p.store.scopes.size)
    (hOthers : ∀ i, i ≠ t → st.scope i = p.store.scope i)
    (hVars : (st.scope t).vars = Table.put x v (p.store.scope t).vars)
    (hOuter : ∀ i, (st.scope i).outer = (p.store.scope i).outer)
    (hRegistered : ∀ y, y ∈ (st.scope Store.root).reserved ↔ y ∈ names)
    (hUnreserved : ∀ i, i ≠ Store.root → (st.scope i).reserved = []) :
    Place.Matches { p with store := st } { h.store t x v with registered := names } where
  inUse := hSize ▸ hMatches.inUse
  size := hSize.trans hMatches.size
  chain := (Store.chain_congr hMatches.outer_lt fun i _ => hOuter i).trans hMatches.chain
  outer_eq_none := by
    intro i hi
    rw [hOuter]
    exact hMatches.outer_eq_none i (hSize ▸ hi)
  outer_lt := by
    intro i o hLink
    rw [hOuter] at hLink
    exact hMatches.outer_lt i o hLink
  vars := by
    intro i
    change (st.scope i).vars = ((h.store t x v).storedIn i).foldl _ []
    by_cases hOwn : i = t
    · subst hOwn
      rw [hVars, h.storedIn_store_self, List.foldl_append, hMatches.vars]
      rfl
    · rw [hOthers i hOwn, h.storedIn_store_of_ne hOwn, hMatches.vars]
  registered := hRegistered
  unreserved := hUnreserved

/-- A value that is stored in the current scope is recorded there. -/
theorem bind (hMatches : p.Matches h) (x : Symbol) (v : Expr) :
    Place.Matches { p with store := p.store.bind p.scope x v } (h.store p.scope x v) := by
  refine hMatches.written (p.store.size_bind p.scope x v) (fun i hi => ?_) ?_
    (p.store.outer_bind p.scope x v) (fun y => ?_) fun i hi => ?_
  · exact Store.scope_bind_of_ne (Ne.symm hi) p.store x v
  · rw [Store.scope_bind_self hMatches.inUse]
  · rw [p.store.reserved_bind]
    exact hMatches.registered y
  · rw [p.store.reserved_bind]
    exact hMatches.unreserved i hi

/-- A value that is registered is recorded at the root, and its name with it. -/
theorem register (hMatches : p.Matches h) (x : Symbol) (v : Expr) :
    Place.Matches { p with store := p.store.register p.scope x v } (h.register x v) := by
  have hRoot := hMatches.rootOf
  have hOthers (i : ScopeId) (hi : i ≠ Store.root) :
      (p.store.register p.scope x v).scope i = p.store.scope i :=
    Store.scope_register_of_ne (by rw [hRoot]; exact Ne.symm hi) x v
  refine hMatches.written (p.store.size_register p.scope x v) hOthers ?_
    (p.store.outer_register p.scope x v) (fun y => ?_) fun i hi => ?_
  · rw [(p.store.scope_register p.scope x v Store.root).1, hRoot,
      Store.scope_bind_self hMatches.root_lt_size]
  · have hMember := Store.mem_reserved_register (hRoot.symm ▸ hMatches.root_lt_size) x v y
    rw [hRoot] at hMember
    rw [hMember, hMatches.registered]
    simp
  · rw [hOthers i hi, hMatches.unreserved i hi]

/-- The names before the first that is no symbol are registered one by one. The
induction is on the names. -/
theorem update (hMatches : p.Matches h) (entries : List (Binder × Expr)) :
    (ScopeOp.next p (.update entries)).Matches (h.record (.update entries)) := by
  induction entries generalizing p h with
  | nil => exact hMatches
  | cons entry entries ih =>
      obtain ⟨name, v⟩ := entry
      cases name with
      | symbol x => exact ih (hMatches.register x v)
      | other text => exact hMatches

/-- A pushed scope is the innermost one of the path and has no record. -/
theorem push (hMatches : p.Matches h) : (ScopeOp.next p .push).Matches (h.record .push) := by
  let st := p.store.extend { outer := some p.scope }
  have hNew : st.scope p.store.scopes.size = { outer := some p.scope } := by
    rw [p.store.scope_extend, if_pos rfl]
  have hOld (i : ScopeId) (hi : i ≠ p.store.scopes.size) : st.scope i = p.store.scope i := by
    rw [p.store.scope_extend, if_neg hi]
  have hRoot : Store.root ≠ p.store.scopes.size := Nat.ne_of_lt hMatches.root_lt_size
  have hSize : st.scopes.size = p.store.scopes.size + 1 := p.store.size_extend _
  have hOuter (i o : ScopeId) (hLink : (st.scope i).outer = some o) : o < i := by
    by_cases hi : i = p.store.scopes.size
    · rw [hi, hNew] at hLink
      cases hLink
      exact hi ▸ hMatches.inUse
    · rw [hOld i hi] at hLink
      exact hMatches.outer_lt i o hLink
  refine ⟨?_, ?_, ?_, ?_, hOuter, ?_, ?_, ?_⟩
  · exact hSize ▸ Nat.lt_succ_self _
  · exact hSize.trans (congrArg (· + 1) hMatches.size)
  · -- Inside the store as it was, the way outward is the same.
    have hWithin : st.chain p.scope = p.store.chain p.scope := by
      refine Store.chain_congr hMatches.outer_lt fun i hi => ?_
      rw [hOld i (Nat.ne_of_lt (Nat.lt_of_le_of_lt hi hMatches.inUse))]
    change st.chain p.store.scopes.size = h.opened :: h.path
    rw [Store.chain_of_outer hOuter (congrArg Scope.outer hNew), hWithin, hMatches.chain,
      hMatches.size]
  · intro i hi
    change i < st.scopes.size at hi
    change (st.scope i).outer = none ↔ i = Store.root
    rw [hSize] at hi
    by_cases hLast : i = p.store.scopes.size
    · rw [hLast, hNew]
      exact iff_of_false (by simp) (Ne.symm hRoot)
    · rw [hOld i hLast]
      exact hMatches.outer_eq_none i (Nat.lt_of_le_of_ne (Nat.le_of_lt_succ hi) hLast)
  · intro i
    change (st.scope i).vars = (h.storedIn i).foldl _ []
    by_cases hi : i = p.store.scopes.size
    · rw [← hMatches.vars, hi, hNew, p.store.scope_of_size_le (Nat.le_refl _)]
    · rw [hOld i hi, hMatches.vars]
  · intro x
    exact (hOld _ hRoot).symm ▸ hMatches.registered x
  · intro i hi
    change (st.scope i).reserved = []
    by_cases hLast : i = p.store.scopes.size
    · rw [hLast, hNew]
    · rw [hOld i hLast, hMatches.unreserved i hi]

/-- Only the root has no scope around it. -/
theorem perform_pop (hMatches : p.Matches h) :
    (p.scope = Store.root ∧ h.path = [p.scope] ∧
      ScopeOp.perform p .pop = .error (.inl .popRoot) p) ∨
    ∃ o < p.scope, h.path = p.scope :: p.store.chain o ∧
      ScopeOp.perform p .pop = .ok () { p with scope := o } := by
  cases hLink : (p.store.scope p.scope).outer with
  | none =>
      refine .inl ⟨(hMatches.outer_eq_none p.scope hMatches.inUse).mp hLink, ?_, ?_⟩
      · rw [← hMatches.chain, Store.chain_of_outer_none hLink]
      · simp [ScopeOp.perform, Store.outerOf, hLink]
  | some o =>
      refine .inr ⟨o, hMatches.outer_lt _ o hLink, ?_, ?_⟩
      · rw [← hMatches.chain, Store.chain_of_outer hMatches.outer_lt hLink]
      · simp [ScopeOp.perform, Store.outerOf, hLink]

/-- Leaving a scope keeps its record, and at the root nothing is left. -/
theorem pop (hMatches : p.Matches h) : (ScopeOp.next p .pop).Matches (h.record .pop) := by
  rcases hMatches.perform_pop with ⟨_, hPath, hPop⟩ | ⟨o, hOlder, hPath, hPop⟩
  · simp only [ScopeOp.next, hPop, History.record, hPath]
    exact hMatches
  · have hChain : p.store.chain o = o :: (p.store.chain o).tail := rfl
    rw [hChain] at hPath
    simp only [ScopeOp.next, hPop, History.record, hPath]
    exact { hMatches with
      inUse := Nat.lt_trans hOlder hMatches.inUse
      chain := hChain }

/-- A definition succeeds unless the name was registered. -/
theorem perform_define (hMatches : p.Matches h) (x : Symbol) (v : Expr) :
    ScopeOp.perform p (.define (.symbol x) v) =
      if x ∈ h.registered then .error (.inr (.malformed (.redefinesBuiltin x))) p
      else .ok () { p with store := p.store.bind p.scope x v } := by
  have hReserved := hMatches.isReserved_iff x
  by_cases hKnown : x ∈ h.registered
  · simp [ScopeOp.perform, Store.defineAs, Store.define, hReserved.mpr hKnown, hKnown]
  · simp [ScopeOp.perform, Store.defineAs, Store.define, mt hReserved.mp hKnown, hKnown]

/-- The record of an operation says what the operation has done. -/
theorem next (hMatches : p.Matches h) (op : ScopeOp) : (op.next p).Matches (h.record op) := by
  cases op with
  | push => exact hMatches.push
  | pop => exact hMatches.pop
  | define name v =>
      cases name with
      | symbol x =>
          rw [ScopeOp.next, hMatches.perform_define, History.record, hMatches.headD_path]
          by_cases hKnown : x ∈ h.registered
          · rw [if_pos hKnown, if_pos hKnown]
            exact hMatches
          · rw [if_neg hKnown, if_neg hKnown]
            exact hMatches.bind x v
      | other text => exact hMatches
  | bind x v =>
      rw [History.record, hMatches.headD_path]
      exact hMatches.bind x v
  | register x v => exact hMatches.register x v
  | update entries => exact hMatches.update entries

/-- The record of operations says what all of them have done. The induction is on
the operations. -/
theorem run (hMatches : p.Matches h) (ops : List ScopeOp) :
    (ops.foldl ScopeOp.next p).Matches (ops.foldl History.record h) := by
  induction ops generalizing p h with
  | nil => exact hMatches
  | cons op ops ih => exact ih (hMatches.next op)

/-- An operation changes no scope but its target. -/
theorem scope_next (hMatches : p.Matches h) (op : ScopeOp) {i : ScopeId}
    (hTarget : op.target? p ≠ some i) (hi : i < p.store.scopes.size) :
    (op.next p).store.scope i = p.store.scope i := by
  cases op with
  | push => exact Store.scope_push_of_lt hi p.scope
  | pop =>
      rcases hMatches.perform_pop with ⟨_, _, hPop⟩ | ⟨o, _, _, hPop⟩ <;> rw [ScopeOp.next, hPop]
  | define name v =>
      have hOther : p.scope ≠ i := fun hSame => hTarget (congrArg some hSame)
      cases name with
      | symbol x =>
          rw [ScopeOp.next, hMatches.perform_define]
          by_cases hKnown : x ∈ h.registered
          · rw [if_pos hKnown]
          · rw [if_neg hKnown]
            exact Store.scope_bind_of_ne hOther p.store x v
      | other text => rfl
  | bind x v =>
      have hOther : p.scope ≠ i := fun hSame => hTarget (congrArg some hSame)
      exact Store.scope_bind_of_ne hOther p.store x v
  | register x v =>
      have hOther : Store.root ≠ i := fun hSame => hTarget (congrArg some hSame)
      exact Store.scope_register_of_ne (hMatches.rootOf.symm ▸ hOther) x v
  | update entries =>
      have hOther : Store.root ≠ i := fun hSame => hTarget (congrArg some hSame)
      induction entries generalizing p h with
      | nil => rfl
      | cons entry entries ih =>
          obtain ⟨name, v⟩ := entry
          cases name with
          | other text => rfl
          | symbol x =>
              have hFirst : (p.store.register p.scope x v).scope i = p.store.scope i :=
                Store.scope_register_of_ne (hMatches.rootOf.symm ▸ hOther) x v
              have hRest := ih (hMatches.register x v)
                ((p.store.size_register p.scope x v).symm ▸ hi) hTarget
              exact hRest.trans hFirst

/-- A scope holds the last value that a name was given in it. -/
theorem get?_vars (hMatches : p.Matches h) (i : ScopeId) (x : Symbol) :
    Table.get? (p.store.scope i).vars x = h.last? i x := by
  rw [hMatches.vars, Table.get?_foldl_put, Table.get?_nil, Option.or_none]
  rfl

/-- A scope lists its names in the order in which they were first given a value. -/
theorem keys_vars (hMatches : p.Matches h) (i : ScopeId) :
    Table.keys (p.store.scope i).vars = (h.given i).eraseDups := by
  rw [hMatches.vars, Table.keys_foldl_put]
  rfl

/-- Only the root reserves names. -/
theorem contains_reserved (hMatches : p.Matches h) (i : ScopeId) (x : Symbol) :
    (p.store.scope i).reserved.contains x = decide (i = Store.root ∧ x ∈ h.registered) := by
  by_cases hRoot : i = Store.root
  · simp [hRoot, hMatches.registered]
  · simp [hRoot, hMatches.unreserved i hRoot]

/-- A scope is written with its names in order of first binding, each with its
last value. -/
theorem text (hMatches : p.Matches h) {i : ScopeId} (hi : i < p.store.scopes.size) :
    ∃ shown : Table Symbol Expr, h.Shows i shown ∧
      (p.store.scope i).text =
        "\x7b" ++ ", ".intercalate (shown.map fun entry => entry.1.name ++ ": " ++ entry.2.display)
          ++ "\x7d" ++ if i = Store.root then "" else " -> ..." := by
  let sc := p.store.scope i
  have hDistinct : (Table.keys sc.vars).Nodup := by
    rw [hMatches.vars]
    exact Table.nodup_keys_foldl_put List.nodup_nil
  have hKeys : Table.keys (sc.vars.filter fun entry => !sc.reserved.contains entry.1) =
      (Table.keys sc.vars).filter fun x => !sc.reserved.contains x := by
    rw [Table.keys, Table.keys, List.filter_map]
    rfl
  refine ⟨sc.vars.filter fun entry => !sc.reserved.contains entry.1, ⟨?_, ?_, ?_⟩, ?_⟩
  · rw [hKeys, hMatches.keys_vars]
    refine List.filter_congr fun x _ => ?_
    rw [hMatches.contains_reserved, decide_not]
  · rw [hKeys]
    exact hDistinct.filter _
  · intro entry hEntry
    rw [← hMatches.get?_vars]
    exact Table.get?_of_mem hDistinct (List.mem_of_mem_filter hEntry)
  · have hMark : (if sc.outer.isSome then " -> ..." else "") =
        if i = Store.root then "" else " -> ..." := by
      have hOuter : sc.outer = none ↔ i = Store.root := hMatches.outer_eq_none i hi
      by_cases hRoot : i = Store.root
      · rw [if_pos hRoot, hOuter.mpr hRoot]
        rfl
      · rw [if_neg hRoot, if_pos (Option.isSome_iff_ne_none.mpr (mt hOuter.mp hRoot))]
    change sc.varsText ++ _ = _
    rw [hMark]
    rfl

end Place.Matches

/-- Whatever operations were performed on a new root, the store answers from their
record alone. A name has the value that was last stored under it in the innermost
scope on the way outward that was given the name, and it is unbound if none was.
An operation changes no scope but its target, which is the current scope of a
definition and of a parameter, and the root for names that are registered. A name
is refused by a definition if it was registered before, in whatever scope, and the
root is not left; both change nothing. The text of a scope shows each name once,
in the order in which the scope was given the names and with the last value, and
leaves out the registered names in the root only. -/
theorem Place.after_lawful (ops : List ScopeOp) :
    let p := Place.after ops
    let h := History.of ops
    (p.store.chain p.scope = h.path ∧ p.store.scopes.size = h.opened) ∧
    (∀ (x : Symbol) (v : Expr) (log : Array LogRecord),
      EvalM.lookup p.scope x ⟨p.store, log⟩ = .ok v ⟨p.store, log⟩ ↔
        (h.path.findSome? fun i => h.last? i x) = some v) ∧
    (∀ (x : Symbol) (log : Array LogRecord),
      EvalM.lookup p.scope x ⟨p.store, log⟩ = .error (.unbound x) ⟨p.store, log⟩ ↔
        ∀ i ∈ h.path, x ∉ h.given i) ∧
    (∀ (op : ScopeOp) (i : ScopeId), i < h.opened → op.target? p ≠ some i →
      (op.next p).store.scope i = p.store.scope i) ∧
    (∀ (x : Symbol) (v : Expr), ScopeOp.perform p (.define (.symbol x) v) =
      if x ∈ h.registered then .error (.inr (.malformed (.redefinesBuiltin x))) p
      else .ok () { p with store := p.store.bind p.scope x v }) ∧
    (ScopeOp.perform p .pop = .error (.inl .popRoot) p ↔ p.scope = Store.root) ∧
    ∀ i < h.opened, ∃ shown : Table Symbol Expr, h.Shows i shown ∧
      (p.store.scope i).text =
        "\x7b" ++ ", ".intercalate (shown.map fun entry => entry.1.name ++ ": " ++ entry.2.display)
          ++ "\x7d" ++ if i = Store.root then "" else " -> ..." := by
  intro p h
  have hMatches : p.Matches h := Place.Matches.fresh.run ops
  have hLookup (x : Symbol) :
      p.store.lookup? p.scope x = h.path.findSome? fun i => h.last? i x := by
    rw [Store.lookup?_eq_findSome?, hMatches.chain]
    simp only [hMatches.get?_vars]
  refine ⟨⟨hMatches.chain, hMatches.size⟩, ?_, ?_, ?_, hMatches.perform_define, ?_, ?_⟩
  · intro x v log
    rw [EvalM.lookup_apply, hLookup]
    split <;> simp [*]
  · intro x log
    simp only [← History.last?_eq_none_iff]
    rw [EvalM.lookup_apply, hLookup, ← List.findSome?_eq_none_iff]
    split <;> simp [*]
  · intro op i hi hTarget
    exact hMatches.scope_next op hTarget (hMatches.size ▸ hi)
  · rcases hMatches.perform_pop with ⟨hRoot, _, hPop⟩ | ⟨o, hOlder, _, hPop⟩
    · exact iff_of_true hPop hRoot
    · rw [hPop]
      refine iff_of_false (fun hError => by cases hError) fun hRoot => ?_
      rw [hRoot] at hOlder
      exact Nat.not_lt_zero o hOlder
  · intro i hi
    exact hMatches.text (hMatches.size ▸ hi)

/-- A name is defined in the root, registered later and then bound in an inner
scope. The inner scope has its own value and keeps it when the name is registered
again, a definition is refused, and the root no longer shows the name. -/
theorem Place.after_lawful_shadowed :
    let x : Symbol := ⟨"x", by decide⟩
    let ops : List ScopeOp := [.define (.symbol x) (.string "a"), .register x (.string "b"), .push,
      .bind x (.string "c")]
    let p := Place.after ops
    EvalM.lookup p.scope x ⟨p.store, #[]⟩ = .ok (.string "c") ⟨p.store, #[]⟩ ∧
      (ScopeOp.next p (.register x (.string "d"))).store.scope 1 = p.store.scope 1 ∧
      ScopeOp.perform p (.define (.symbol x) (.string "d")) =
        .error (.inr (.malformed (.redefinesBuiltin x))) p ∧
      (p.store.scope Store.root).text = "\x7b\x7d" := by
  intro x ops p
  obtain ⟨_, hLookup, _, hFrame, hDefine, _, hText⟩ := Place.after_lawful ops
  have hKnown : x ∈ (History.of ops).registered := by decide
  refine ⟨(hLookup x _ #[]).mpr rfl, hFrame (.register x _) 1 (by decide) (by decide), ?_, ?_⟩
  · rw [hDefine, if_pos hKnown]
  · obtain ⟨shown, hShows, hShown⟩ := hText Store.root (by decide)
    have hNone : shown = [] := List.map_eq_nil_iff.mp (hShows.names.trans (by decide))
    rw [hShown, hNone]
    rfl

end PlotLang
