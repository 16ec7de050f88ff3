import PlotLang.Text.DecimalDigit

/-!
Numerals: the texts that are read as numbers.

A numeral is an optional sign, digits that may hold one decimal point and must have a digit before
or after it, and optionally a power of ten: the letter `e` or `E`, an optional sign and at least
one digit. The digits may be of any script. The value is the float nearest to the number written.
-/

namespace PlotLang

/-- The parts of a numeral: `(-1) ^ negative * digits * 10 ^ exponent`. -/
structure Numeral where
  negative : Bool
  digits : Nat
  exponent : Int
deriving Repr, DecidableEq

namespace Numeral

/-- An optional sign in front of a text, with the text after it. -/
def splitSign : List Char → Bool × List Char
  | '-' :: cs => (true, cs)
  | '+' :: cs => (false, cs)
  | cs => (false, cs)

/-- The value of a whole text of digits, at least one. -/
def digits? (cs : List Char) : Option Nat :=
  if !cs.isEmpty && cs.all Text.isDigit then some (Text.digitsValue cs) else none

/-- The exponent part: nothing, or the mark, an optional sign and digits up to the end. -/
def exponent? : List Char → Option Int
  | [] => some 0
  | c :: cs =>
    if c == 'e' || c == 'E' then
      let (negative, ds) := splitSign cs
      (digits? ds).map fun n => if negative then -(n : Int) else n
    else none

/-- The digits after an optional point, with the rest of the text. -/
def splitFraction : List Char → List Char × List Char
  | '.' :: cs => (cs.takeWhile Text.isDigit, cs.dropWhile Text.isDigit)
  | cs => ([], cs)

/-- Reads a whole text as a numeral. -/
def ofChars? (cs : List Char) : Option Numeral :=
  let (negative, unsigned) := splitSign cs
  let whole := unsigned.takeWhile Text.isDigit
  let (fraction, rest) := splitFraction (unsigned.dropWhile Text.isDigit)
  if whole.isEmpty && fraction.isEmpty then none
  else
    (exponent? rest).map fun e =>
      { negative, digits := Text.digitsValue (whole ++ fraction), exponent := e - fraction.length }

/-- The float nearest to `digits * 10 ^ exponent`. A number beyond `10 ^ 310` is infinite and one
below `10 ^ (-400)` is zero, so an exponent out of these bounds is never raised to a power. -/
def magnitude (digits : Nat) (exponent : Int) : Float :=
  let scale := exponent + (Nat.toDigits 10 digits).length
  if digits == 0 || scale < -400 then 0.0
  else if 310 < scale then 1.0 / 0.0
  else Float.ofScientific digits (exponent < 0) exponent.natAbs

def toFloat (n : Numeral) : Float :=
  if n.negative then -(magnitude n.digits n.exponent) else magnitude n.digits n.exponent

end Numeral

/-- The number that a text denotes, if it is a numeral. -/
def readNumber? (s : String) : Option Float := (Numeral.ofChars? s.toList).map Numeral.toFloat

end PlotLang
