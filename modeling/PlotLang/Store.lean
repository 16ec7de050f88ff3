import PlotLang.Error

/-!
Scopes and the store that holds them.

A scope binds names to values and may have an outer scope. Names are looked up from the innermost
scope outward. The host registers names on the outermost scope of a chain, the root; from then on
no scope of the chain can define them. Procedures refer to scopes by address, so a scope stays in
the store for as long as the store lives.
-/

namespace PlotLang

/-- A scope: its variables in the order of their first binding, the scope around it, and the names
that the host registered in it. -/
structure Scope where
  vars : List (Symbol × Expr) := []
  outer : Option ScopeId := none
  reserved : List Symbol := []

/-- All scopes made so far, and the count of procedures made so far. A scope is made after the
scope around it, so it has the greater address. -/
structure Store where
  scopes : Array Scope
  closures : Nat

/-- Where the enclosing scope of a root is asked for. -/
inductive ScopeError where
  | popRoot
deriving DecidableEq, Repr

def ScopeError.message : ScopeError → String
  | popRoot => "cannot pop the root scope"

/-- What a host gives as the name of a definition: a symbol, or some other datum by its text. -/
inductive Binder where
  | symbol (s : Symbol)
  | other (text : String)

namespace Store

def empty : Store := { scopes := #[{}], closures := 0 }

def root : ScopeId := 0

/-- The scope at an address; at an address not in use, an empty one. -/
def scope (st : Store) (s : ScopeId) : Scope := st.scopes[s]?.getD {}

/-- The addresses from a scope outward, for at most the given count of scopes. -/
def chainWithin (st : Store) : Nat → ScopeId → List ScopeId
  | 0, _ => []
  | n + 1, s =>
    s :: match (st.scope s).outer with
      | none => []
      | some o => chainWithin st n o

/-- The addresses from a scope outward to its root. Outer scopes have smaller addresses, so the
chain is not longer than the address allows. -/
def chain (st : Store) (s : ScopeId) : List ScopeId := st.chainWithin (s + 1) s

/-- The outermost scope around a scope. -/
def rootOf (st : Store) (s : ScopeId) : ScopeId := (st.chain s).getLast?.getD s

/-- Whether the host registered a name in the root around a scope. -/
def isReserved (st : Store) (s : ScopeId) (x : Symbol) : Bool :=
  (st.scope (st.rootOf s)).reserved.contains x

/-- The nearest scope outward that binds a name. -/
def find? (st : Store) (s : ScopeId) (x : Symbol) : Option ScopeId :=
  (st.chain s).find? fun i => Table.has (st.scope i).vars x

/-- How many scopes outward the nearest binding of a name is. -/
def hops? (st : Store) (s : ScopeId) (x : Symbol) : Option Nat :=
  (st.chain s).findIdx? fun i => Table.has (st.scope i).vars x

/-- The value of a name as seen from a scope. -/
def lookup? (st : Store) (s : ScopeId) (x : Symbol) : Option Expr :=
  (st.find? s x).bind fun i => Table.get? (st.scope i).vars x

/-- Binds a name in a scope, whether the host registered it or not. -/
def bind (st : Store) (s : ScopeId) (x : Symbol) (v : Expr) : Store :=
  { st with scopes := st.scopes.modify s fun sc => { sc with vars := Table.put x v sc.vars } }

/-- Defines a name in a scope, unless the host registered it. -/
@[inline] def define (st : Store) (s : ScopeId) (x : Symbol) (v : Expr) : Except EvalError Store :=
  if st.isReserved s x then .error (.malformed (.redefinesBuiltin x)) else .ok (st.bind s x v)

/-- Registers a name for the host: binds it in the root around the scope and protects it. -/
def register (st : Store) (s : ScopeId) (x : Symbol) (v : Expr) : Store :=
  let r := st.rootOf s
  let bound := st.bind r x v
  { bound with
    scopes := bound.scopes.modify r fun sc =>
      if sc.reserved.contains x then sc else { sc with reserved := sc.reserved ++ [x] } }

/-- Defines a name given by the host, which must be a symbol. -/
def defineAs (st : Store) (s : ScopeId) (b : Binder) (v : Expr) : Except EvalError Store :=
  match b with
  | .symbol x => st.define s x v
  | .other text => .error (.malformed (.nameNotSymbol text))

/-- Registers names in turn, up to the first that is no symbol. The names before it stay
registered. -/
def registerAll (st : Store) (s : ScopeId) :
    List (Binder × Expr) → EStateM.Result EvalError Store Unit
  | [] => .ok () st
  | (.symbol x, v) :: rest => registerAll (st.register s x v) s rest
  | (.other text, _) :: _ => .error (.malformed (.nameNotSymbol text)) st

def push (st : Store) (outer : ScopeId) : ScopeId × Store :=
  (st.scopes.size, { st with scopes := st.scopes.push { outer := some outer } })

def outerOf (st : Store) (s : ScopeId) : Except ScopeError ScopeId :=
  match (st.scope s).outer with
  | some o => .ok o
  | none => .error .popRoot

def newClosure (st : Store) : Nat × Store := (st.closures, { st with closures := st.closures + 1 })

/-- Binding a name puts it into the variables of its scope. -/
theorem scope_bind_self {st : Store} {s : ScopeId} (h : s < st.scopes.size) (x : Symbol)
    (v : Expr) :
    (st.bind s x v).scope s
      = { st.scope s with vars := Table.put x v (st.scope s).vars } := by
  simp [scope, bind, Array.getElem_modify, h]

/-- Binding a name changes no other scope. -/
theorem scope_bind_of_ne {s i : ScopeId} (h : s ≠ i) (st : Store) (x : Symbol) (v : Expr) :
    (st.bind s x v).scope i = st.scope i := by
  simp [scope, bind, Array.getElem?_modify, h]

/-- A new scope changes no scope made before it. -/
theorem scope_push_of_lt {st : Store} {i : ScopeId} (h : i < st.scopes.size) (outer : ScopeId) :
    (st.push outer).2.scope i = st.scope i := by
  simp [scope, push, Array.getElem?_push, Nat.ne_of_lt h]

end Store

namespace Scope

/-- The text of a scope's own variables, without the names that the host registered in it. -/
def varsText (sc : Scope) : String :=
  let shown := sc.vars.filter fun p => !sc.reserved.contains p.1
  "\x7b" ++ ", ".intercalate (shown.map fun p => p.1.name ++ ": " ++ p.2.display) ++ "\x7d"

def text (sc : Scope) : String := sc.varsText ++ if sc.outer.isSome then " -> ..." else ""

end Scope

namespace Store

def chainText (st : Store) (s : ScopeId) : String :=
  "<Environment chain: " ++ " -> ".intercalate ((st.chain s).map fun i => (st.scope i).varsText)
    ++ ">"

end Store
end PlotLang
