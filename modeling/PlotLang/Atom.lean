import PlotLang.Builtin
import PlotLang.Complex
import PlotLang.Decimal
import PlotLang.Keyword
import PlotLang.Numeral

/-!
Atoms: the heads of expressions. An atom is a plain datum, a name, or the mark of a compound value
whose parts are the children of the expression that it heads.
-/

namespace PlotLang

abbrev ScopeId := Nat

/-- What a procedure made by `lambda` carries besides its body: its parameters and the scope in
which it was made. The identity tells apart procedures that were made at different times. -/
structure Closure where
  identity : Nat
  formals : List Symbol
  scope : ScopeId
deriving DecidableEq

/-- The head of an expression. -/
inductive Atom where
  /-- no value -/
  | none
  | number (x : Float)
  | complex (z : Complex)
  | symbol (s : Symbol)
  | string (text : String)
  | procedure (b : Builtin)
  /-- heads a list; the elements are the children -/
  | list
  /-- heads a procedure made by `lambda`; the body is the only child -/
  | lambda (c : Closure)
  /-- heads a plot; the items are the children -/
  | discrete (name : String)
deriving DecidableEq

namespace Closure

def text (c : Closure) : String := "(" ++ " ".intercalate (c.formals.map Symbol.name) ++ ")"

end Closure

namespace Atom

/-- The text of a number in values and messages: six significant digits. -/
def numberText (x : Float) : String := significant 6 x

/-- The text of an atom on its own. The mark of a list has none. -/
def text : Atom → String
  | none => "NONE"
  | number x => numberText x
  | complex z => "(" ++ numberText z.re ++ "," ++ numberText z.im ++ ")"
  | symbol s => s.name
  | string t => "\"" ++ t ++ "\""
  | procedure b => b.name
  | list => ""
  | lambda _ => "lambda"
  | discrete n => n ++ "-plot"

/-- Equality of atoms: the same kind and equal content. Numbers are compared as numbers, and
procedures made by `lambda` by identity. -/
def equal : Atom → Atom → Bool
  | none, none => true
  | number x, number y => x == y
  | complex z, complex w => z.equal w
  | symbol s, symbol t => s == t
  | string s, string t => s == t
  | procedure b, procedure c => b == c
  | list, list => true
  | lambda c, lambda d => c.identity == d.identity
  | discrete m, discrete n => m == n
  | _, _ => false

/-- Whether a text stands between double quotes, and what stands between them. -/
def unquote? (cs : List Char) : Option (List Char) :=
  match cs with
  | '"' :: c :: rest => if (c :: rest).getLast? == some '"' then some (c :: rest).dropLast else .none
  | _ => .none

/-- The atom that a word or a quoted string of the source text denotes: a number if it is a
numeral, a string if it stands between double quotes, and a symbol otherwise. Nothing is denoted by
a text that is none of the three. -/
def ofWord? (s : String) : Option Atom :=
  match readNumber? s with
  | some x => some (number x)
  | .none =>
    match unquote? s.toList with
    | some t => some (string (String.ofList t))
    | .none => (Symbol.ofName? s).map symbol

end Atom

/-- Of a list of atoms, those that equal no earlier one. An atom that does not equal itself is kept
at every occurrence. -/
def distinctAtoms (atoms : List Atom) : List Atom :=
  atoms.foldl (fun kept a => if kept.any (Atom.equal a) then kept else kept ++ [a]) []

end PlotLang
