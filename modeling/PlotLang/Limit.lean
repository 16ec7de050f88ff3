import PlotLang.Numeral
import PlotLang.Text.Blank

/-!
The configured limit on how deep evaluation may nest. A setting is a whole number: an optional sign
and digits of any script, with single underscores allowed between digits and blanks allowed around
it. A setting that is missing, not such a number, longer than 4300 digits or not positive leaves
the default in place.
-/

namespace PlotLang.Limit

def default : Nat := 200

def maxDigits : Nat := 4300

/-- The digits of a whole number with single underscores between digits. `afterDigit` says that the
character in front was a digit. -/
def groupedDigits? (afterDigit : Bool) : List Char → Option (List Char)
  | [] => if afterDigit then some [] else none
  | c :: cs =>
    if Text.isDigit c then (groupedDigits? true cs).map (c :: ·)
    else if afterDigit && c == '_' then groupedDigits? false cs
    else none

def readInt? (cs : List Char) : Option Int :=
  let (negative, unsigned) := Numeral.splitSign cs
  match groupedDigits? false unsigned with
  | some ds =>
    if ds.length ≤ maxDigits then
      some (if negative then -(Text.digitsValue ds : Int) else Text.digitsValue ds)
    else none
  | none => none

/-- The limit that a setting gives. -/
def ofSetting (setting : Option String) : Int :=
  match (setting.map fun s => readInt? (Text.trim s.toList)).join with
  | some n => if 0 < n then n else default
  | none => default

/-- Every setting gives a positive limit. -/
theorem ofSetting_pos (setting : Option String) : 0 < ofSetting setting := by
  unfold ofSetting
  split
  · split
    · assumption
    · simp [default]
  · simp [default]

end PlotLang.Limit
