import PlotLang.Atom
import PlotLang.Table

/-!
Expressions. Programs and values have one representation: a head atom, a list of children called
the tail, and a table of named properties that only plot objects use. Expressions are plain values,
so building one from others never lets a later change show in it.
-/

namespace PlotLang

/-- An expression: head, children and properties. -/
structure Expr where
  head : Atom
  tail : List Expr
  properties : List (String × Expr)

namespace Expr

def leaf (a : Atom) : Expr := ⟨a, [], []⟩

/-- An expression without properties. -/
def node (a : Atom) (children : List Expr) : Expr := ⟨a, children, []⟩

def none : Expr := leaf .none

def number (x : Float) : Expr := leaf (.number x)

def string (text : String) : Expr := leaf (.string text)

def list (items : List Expr) : Expr := node .list items

def lambda (c : Closure) (body : Expr) : Expr := node (.lambda c) [body]

def plot (name : String) (items : List Expr) : Expr := node (.discrete name) items

instance : Inhabited Expr := ⟨none⟩

def isLeaf (e : Expr) : Bool := e.tail.isEmpty

def isNone (e : Expr) : Bool :=
  match e.head, e.tail with
  | .none, [] => true
  | _, _ => false

def isList (e : Expr) : Bool :=
  match e.head with
  | .list => true
  | _ => false

def isPlot (e : Expr) : Bool :=
  match e.head with
  | .discrete _ => true
  | _ => false

/-- Whether the head is a procedure, built in or made by `lambda`. -/
def isCallable (e : Expr) : Bool :=
  match e.head with
  | .procedure _ | .lambda _ => true
  | _ => false

def headString? (e : Expr) : Option String :=
  match e.head with
  | .string t => some t
  | _ => Option.none

def headNumber? (e : Expr) : Option Float :=
  match e.head with
  | .number x => some x
  | _ => Option.none

def asString? (e : Expr) : Option String := if e.isLeaf then e.headString? else Option.none

def asNumber? (e : Expr) : Option Float := if e.isLeaf then e.headNumber? else Option.none

def asSymbol? (e : Expr) : Option Symbol :=
  match e.head, e.tail with
  | .symbol s, [] => some s
  | _, _ => Option.none

/-- The numbers of a list of exactly two real numbers. -/
def asPair? (e : Expr) : Option (Float × Float) :=
  match e.head, e.tail with
  | .list, [a, b] =>
    match a.asNumber?, b.asNumber? with
    | some x, some y => some (x, y)
    | _, _ => Option.none
  | _, _ => Option.none

def property? (e : Expr) (key : String) : Option Expr := Table.get? e.properties key

def setProperty (e : Expr) (key : String) (value : Expr) : Expr :=
  { e with properties := Table.put key value e.properties }

def push (e : Expr) (a : Atom) : Expr := { e with tail := e.tail ++ [leaf a] }

def withHead (e : Expr) (a : Atom) : Expr := { e with head := a }

mutual

/-- A copy of an expression, built anew with its children and its properties. -/
def copy : Expr → Expr
  | ⟨a, es, ps⟩ => ⟨a, copyAll es, copyProperties ps⟩

def copyAll : List Expr → List Expr
  | [] => []
  | e :: es => copy e :: copyAll es

def copyProperties : List (String × Expr) → List (String × Expr)
  | [] => []
  | p :: ps => copyProperty p :: copyProperties ps

def copyProperty : String × Expr → String × Expr
  | (k, v) => (k, copy v)

end

@[simp] theorem property?_setProperty_self (e v : Expr) (key : String) :
    (e.setProperty key v).property? key = some v := by
  simp [property?, setProperty]

theorem property?_setProperty_of_ne (e v : Expr) {key key' : String} (h : key' ≠ key) :
    (e.setProperty key v).property? key' = e.property? key' := by
  simp [property?, setProperty, Table.get?_put_of_ne h]

end Expr
end PlotLang
