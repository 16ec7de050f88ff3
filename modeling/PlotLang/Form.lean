import PlotLang.Expr

/-!
The forms of the language. Every expression has exactly one form, and the form alone decides by
which rule it is evaluated.
-/

namespace PlotLang

inductive Form where
  /-- an expression that is its own value -/
  | literal
  /-- a name to be looked up -/
  | variable (x : Symbol)
  /-- a keyword with its arguments -/
  | special (k : Keyword) (args : List Expr)
  /-- a call; the head names the procedure if it is a symbol -/
  | call (head : Atom) (args : List Expr)

namespace Expr

/-- Whether the head marks a value made of its children. -/
def isCompoundValue (e : Expr) : Bool :=
  match e.head with
  | .list | .lambda _ | .discrete _ => true
  | _ => false

/-- The form of an expression. A keyword makes a keyword form even without arguments; another
symbol is a name by itself and a call with arguments. Compound values and everything else without
children are literals. -/
def form (e : Expr) : Form :=
  match e.head with
  | .symbol x =>
    match Keyword.ofSymbol? x with
    | some k => .special k e.tail
    | Option.none => if e.isLeaf then .variable x else .call e.head e.tail
  | a => if e.isLeaf || e.isCompoundValue then .literal else .call a e.tail

end Expr
end PlotLang
