import PlotLang.Text.Printable

/-!
Quoted text, as messages show a name. The text stands between single quotes, or between double
quotes when it holds a single quote and no double quote. Inside, the backslash and the enclosing
quote are marked by a backslash, line breaks and tabs by a letter, and every other character that
is not printable by its code point.
-/

namespace PlotLang.Text

/-- The hexadecimal digits of a number in lower case, with zeros in front up to a width. -/
def hexDigits (width n : Nat) : List Char :=
  let digits := Nat.toDigits 16 n
  List.replicate (width - digits.length) '0' ++ digits

def enclosingQuote (cs : List Char) : Char :=
  if cs.contains '\'' && !cs.contains '"' then '"' else '\''

/-- One character as it stands between the quotes `q`. -/
def escapeChar (q c : Char) : List Char :=
  if c == q || c == '\\' then ['\\', c]
  else if c == '\n' then ['\\', 'n']
  else if c == '\r' then ['\\', 'r']
  else if c == '\t' then ['\\', 't']
  else if isPrintable c then [c]
  else if c.toNat < 0x100 then '\\' :: 'x' :: hexDigits 2 c.toNat
  else if c.toNat < 0x10000 then '\\' :: 'u' :: hexDigits 4 c.toNat
  else '\\' :: 'U' :: hexDigits 8 c.toNat

def quote (s : String) : String :=
  let cs := s.toList
  let q := enclosingQuote cs
  String.ofList (q :: (cs.flatMap (escapeChar q) ++ [q]))

end PlotLang.Text
