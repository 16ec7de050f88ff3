import PlotLang.Expr

/-!
The text of an expression.

A value without children stands between parentheses at the top and bare inside another value; the
missing value is always bare, and complex numbers bring their own parentheses. Everything else is
written as a parenthesised sequence: the text of the head, where it has one, and the children.
Properties are not written.
-/

namespace PlotLang.Expr

/-- Whether an expression without children is written as a word and not as a sequence. -/
def isWord : Atom → Bool
  | .list | .discrete _ => false
  | _ => true

/-- The words that stand for the head in a written sequence: none for a list, and the parameters
too for a procedure. -/
def headWords : Atom → List String
  | .list => []
  | .lambda c => ["lambda " ++ c.text]
  | a => [a.text]

/-- The text of an expression without children, if it is written as a word. At the top such a word
gets parentheses, unless it is the missing value or a complex number. -/
def wordText (nested : Bool) (a : Atom) : String :=
  match a with
  | .none => "NONE"
  | .complex _ => a.text
  | _ => if nested then a.text else "(" ++ a.text ++ ")"

mutual

def write (nested : Bool) : Expr → String
  | ⟨a, [], _⟩ => if isWord a then wordText nested a else "(" ++ " ".intercalate (headWords a) ++ ")"
  | ⟨a, e :: es, _⟩ => "(" ++ " ".intercalate (headWords a ++ write true e :: writeAll es) ++ ")"

def writeAll : List Expr → List String
  | [] => []
  | e :: es => write true e :: writeAll es

end

def display (e : Expr) : String := write false e

theorem writeAll_eq_map (es : List Expr) : writeAll es = es.map (write true) := by
  induction es with
  | nil => rfl
  | cons e es ih => simp [writeAll, ih]

end PlotLang.Expr
