import PlotLang.Text.Blank

/-!
Symbols: the names of variables, procedures and keyword forms. A symbol is a word of the source
text, so it has at least one character and holds no blank and no delimiter.
-/

namespace PlotLang

/-- The characters that end a word of the source text although they are not blank. -/
def isDelimiter (c : Char) : Bool := c == '(' || c == ')' || c == '"' || c == ';'

/-- The characters that words of the source text are made of. -/
def isWordChar (c : Char) : Bool := !Text.isBlank c && !isDelimiter c

/-- Whether a text can be the name of a symbol. -/
def isSymbolName (s : String) : Bool := !s.toList.isEmpty && s.toList.all isWordChar

structure Symbol where
  name : String
  valid : isSymbolName name = true
deriving DecidableEq

namespace Symbol

def ofName? (s : String) : Option Symbol := if h : isSymbolName s = true then some ⟨s, h⟩ else none

/-- Symbols of one name are one symbol. -/
theorem eq_of_name_eq {a b : Symbol} (h : a.name = b.name) : a = b := by
  cases a; cases b; cases h; rfl

@[simp] theorem ofName?_name (s : Symbol) : ofName? s.name = some s := by
  simp [ofName?, s.valid]

end Symbol
end PlotLang
