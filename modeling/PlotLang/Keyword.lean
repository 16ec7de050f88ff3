import PlotLang.Symbol

/-!
The keywords of the language. An expression headed by a keyword is evaluated by a rule of its own,
and a keyword can be neither redefined nor used as a parameter.
-/

namespace PlotLang

/-- The forms with an evaluation rule of their own. -/
inductive Keyword where
  /-- binds a name in the current scope -/
  | define
  /-- evaluates expressions in turn and gives the last value -/
  | sequence
  /-- makes a procedure -/
  | lambda
  /-- calls a procedure with the elements of a list -/
  | apply
  /-- calls a procedure with each element of a list -/
  | map
  /-- gives a plot object a property -/
  | setProperty
  /-- reads a property -/
  | getProperty
  /-- lays out a plot of data points -/
  | discretePlot
  /-- lays out a plot of a procedure's graph -/
  | continuousPlot
deriving DecidableEq, Repr

namespace Keyword

def name : Keyword → String
  | define => "define"
  | sequence => "begin"
  | lambda => "lambda"
  | apply => "apply"
  | map => "map"
  | setProperty => "set-property"
  | getProperty => "get-property"
  | discretePlot => "discrete-plot"
  | continuousPlot => "continuous-plot"

def all : List Keyword :=
  [define, sequence, lambda, apply, map, setProperty, getProperty, discretePlot, continuousPlot]

def symbol (k : Keyword) : Symbol := ⟨k.name, by cases k <;> decide⟩

def ofSymbol? (s : Symbol) : Option Keyword := all.find? fun k => k.name == s.name

theorem mem_all (k : Keyword) : k ∈ all := by cases k <;> decide

@[simp] theorem ofSymbol?_symbol (k : Keyword) : ofSymbol? k.symbol = some k := by
  cases k <;> decide

end Keyword

/-- Whether a symbol is reserved for a form with its own rule. -/
def Symbol.isKeyword (s : Symbol) : Bool := (Keyword.ofSymbol? s).isSome

end PlotLang
