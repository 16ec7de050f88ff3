import PlotLang.Expr
import PlotLang.Text.Quoted

/-!
Tokens of the source text and the faults that reading can end in.
-/

namespace PlotLang

inductive Token where
  /-- an opening parenthesis -/
  | opening
  /-- a closing parenthesis -/
  | closing
  /-- a string with its two double quotes -/
  | string (lexeme : String)
  /-- a number or a symbol -/
  | word (text : String)
deriving DecidableEq, Repr

/-- The characters of the source text that a token stands for. -/
def Token.text : Token → String
  | opening => "("
  | closing => ")"
  | string lexeme => lexeme
  | word text => text

inductive SyntaxError where
  /-- A double quote is never closed. The position is where the last token or comment before it
  ends, so blanks in front of the quote are not counted. -/
  | unclosedString (position : Nat)
  /-- A closing parenthesis has no opening one. -/
  | unexpectedClosing
  /-- An opening parenthesis is never closed. -/
  | unmatchedOpening
  /-- A parenthesis opens where the head of a list is expected. -/
  | headNotAtom
  /-- A word is neither a number nor a string nor the name of a symbol. -/
  | invalidSymbol (name : String)
deriving DecidableEq, Repr

/-- The text of a name that no symbol can have, as messages report it. -/
def invalidSymbolMessage (name : String) : String := "invalid symbol name " ++ Text.quote name

namespace SyntaxError

def message : SyntaxError → String
  | unclosedString position => "Unexpected char at " ++ toString position ++ ": " ++ Text.quote "\""
  | unexpectedClosing => "Unexpected ')'"
  | unmatchedOpening => "Unmatched '('"
  | headNotAtom => "Expected an atom at the head of a list"
  | invalidSymbol name => invalidSymbolMessage name

end SyntaxError
end PlotLang
