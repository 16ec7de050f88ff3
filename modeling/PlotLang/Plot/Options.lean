import PlotLang.Error

/-!
Options of a plot: a list of name and value pairs. A later pair overrides an earlier one of the same
name.
-/

namespace PlotLang.Plot

/-- The texts around a plot and the scale at which all its texts are drawn. -/
structure Options where
  title : Option String := none
  abscissaLabel : Option String := none
  ordinateLabel : Option String := none
  textScale : Float := 1.0

inductive OptionKey where
  | title | abscissaLabel | ordinateLabel | textScale
deriving DecidableEq, Repr

namespace OptionKey

def name : OptionKey → String
  | title => "title"
  | abscissaLabel => "abscissa-label"
  | ordinateLabel => "ordinate-label"
  | textScale => "text-scale"

def ofName? (s : String) : Option OptionKey :=
  [title, abscissaLabel, ordinateLabel, textScale].find? fun k => k.name == s

end OptionKey

namespace Options

def labelText (key : OptionKey) (value : Expr) : Except EvalError String :=
  match value.headString? with
  | some text => .ok text
  | none => .error (.mismatch (.labelOption key.name))

/-- The scale of texts, which must be a positive number. -/
def scaleOf (value : Expr) : Except EvalError Float :=
  match value.headNumber? with
  | some x => if 0.0 < x then .ok x else .error (.mismatch .textScaleOption)
  | none => .error (.mismatch .textScaleOption)

def set (o : Options) (key : OptionKey) (value : Expr) : Except EvalError Options :=
  match key with
  | .title => return { o with title := some (← labelText key value) }
  | .abscissaLabel => return { o with abscissaLabel := some (← labelText key value) }
  | .ordinateLabel => return { o with ordinateLabel := some (← labelText key value) }
  | .textScale => return { o with textScale := ← scaleOf value }

/-- Adds one entry of a list of options, which must be a pair of a known name and a value. -/
def addEntry (o : Options) (entry : Expr) : Except EvalError Options :=
  match entry.head, entry.tail with
  | .list, [name, value] =>
    match name.headString? with
    | none => .error (.mismatch (.optionEntry entry))
    | some k =>
      match OptionKey.ofName? k with
      | some key => o.set key value
      | none => .error (.mismatch (.unknownOption k))
  | _, _ => .error (.mismatch (.optionEntry entry))

def ofExpr (e : Expr) : Except EvalError Options :=
  if e.isList then e.tail.foldlM addEntry {} else .error (.mismatch .optionsNotList)

end Options
end PlotLang.Plot
