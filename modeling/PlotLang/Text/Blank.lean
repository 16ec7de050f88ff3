/-!
Blank characters. They separate words of a source text, may not occur in a symbol, and are
dropped from both ends of a configured limit.
-/

namespace PlotLang.Text

/-- The blank characters: tab to carriage return, the four information separators, the space, and
the spaces and line separators beyond the basic alphabet. -/
def isBlank (c : Char) : Bool :=
  let n := c.toNat
  (0x09 ≤ n && n ≤ 0x0d) || (0x1c ≤ n && n ≤ 0x20) || n == 0x85 || n == 0xa0 || n == 0x1680
    || (0x2000 ≤ n && n ≤ 0x200a) || n == 0x2028 || n == 0x2029 || n == 0x202f || n == 0x205f
    || n == 0x3000

def trim (cs : List Char) : List Char :=
  ((cs.dropWhile isBlank).reverse.dropWhile isBlank).reverse

end PlotLang.Text
