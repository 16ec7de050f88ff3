import PlotLang.Symbol

/-!
The names that every session starts with: the built-in procedures and the constants. What the
procedures compute is in the modules below this one.
-/

namespace PlotLang

/-- The built-in procedures, in the order in which they are registered. -/
inductive Builtin where
  | add | sub | mul | div | pow
  | sqrt | ln | sin | cos | tan
  | real | imag | mag | arg | conj
  | list | first | rest | length | append | join | range
  | makePoint | makeLine | makeText
deriving DecidableEq, Repr

namespace Builtin

def name : Builtin → String
  | add => "+"
  | sub => "-"
  | mul => "*"
  | div => "/"
  | pow => "^"
  | sqrt => "sqrt"
  | ln => "ln"
  | sin => "sin"
  | cos => "cos"
  | tan => "tan"
  | real => "real"
  | imag => "imag"
  | mag => "mag"
  | arg => "arg"
  | conj => "conj"
  | list => "list"
  | first => "first"
  | rest => "rest"
  | length => "length"
  | append => "append"
  | join => "join"
  | range => "range"
  | makePoint => "make-point"
  | makeLine => "make-line"
  | makeText => "make-text"

def all : List Builtin :=
  [add, sub, mul, div, pow, sqrt, ln, sin, cos, tan, real, imag, mag, arg, conj,
    list, first, rest, length, append, join, range, makePoint, makeLine, makeText]

def ofName? (s : String) : Option Builtin := all.find? fun b => b.name == s

def symbol (b : Builtin) : Symbol := ⟨b.name, by cases b <;> decide⟩

theorem mem_all (b : Builtin) : b ∈ all := by cases b <;> decide

@[simp] theorem ofName?_name (b : Builtin) : ofName? b.name = some b := by
  cases b <;> decide

end Builtin

/-- The constants, in the order in which they are registered after the procedures. -/
inductive Constant where
  | pi
  | e
  /-- the imaginary unit -/
  | i
deriving DecidableEq, Repr

namespace Constant

def name : Constant → String
  | pi => "pi"
  | e => "e"
  | i => "I"

def all : List Constant := [pi, e, i]

def symbol (c : Constant) : Symbol := ⟨c.name, by cases c <;> decide⟩

end Constant
end PlotLang
