import PlotLang.Expr.Display

/-!
Errors of evaluation, by cause. The wording is in one function. Six kinds of error belong to the
language; besides them a few operations on numbers have no result.
-/

namespace PlotLang

inductive Mismatch where
  /-- a procedure that takes numbers was given something else -/
  | notNumbers (b : Builtin)
  /-- a procedure that takes real numbers was given something else -/
  | notRealNumbers (b : Builtin)
  /-- a procedure that takes a complex number was given something else -/
  | notComplex (b : Builtin)
  /-- a procedure that takes a list was given something else -/
  | notList (b : Builtin)
  /-- a procedure that takes a list with an element was given an empty one -/
  | emptyList (b : Builtin)
  | divisionByZero
  /-- zero was raised to a negative or complex power -/
  | zeroPower
  /-- a power is beyond all finite numbers -/
  | powerOutOfRange
  | lnOfZero
  | lnNotPositive
  | rangeReversed
  | rangeStep
  | lineEnds
  | labelText
  /-- the second argument of a form that spreads a list is no list -/
  | spreadNotList (k : Keyword)
  | propertyKey
  /-- a property was to be set on a value that takes none -/
  | notPlotObject (key : String) (target : Expr)
  | negativeHint (key : String)
  | textScaleHint
  | textRotationHint
  | positionHint
  | objectNameHint
  | optionsNotList
  | optionEntry (entry : Expr)
  | unknownOption (key : String)
  | textScaleOption
  | labelOption (key : String)
  | plotData
  | plotEntry (entry : Expr)
  | plotBounds
  /-- the procedure to be plotted gave something else than a number -/
  | sampleNotNumber (value : Expr)

/-- A call with the wrong count of arguments. -/
inductive ArityFault where
  | builtin (b : Builtin) (allowed : List Nat) (got : Nat)
  | lambda (c : Closure) (got : Nat)

/-- Something else than a procedure in the place of one. -/
inductive NotCallable where
  /-- the head of a call is no name -/
  | head (a : Atom)
  /-- the value that was to be called is no procedure -/
  | value (proc : Expr)
  /-- a keyword was given as the procedure argument of a form -/
  | keyword (given form : Keyword)
  /-- the procedure argument of a form has a value that is no procedure -/
  | argument (form : Keyword) (proc : Expr)

/-- A keyword form or a definition of the wrong shape. -/
inductive Malformed where
  /-- the form has the wrong count of arguments -/
  | arguments (k : Keyword)
  | definedNotSymbol
  | redefinesKeyword (k : Symbol)
  | redefinesBuiltin (name : Symbol)
  /-- something else than a symbol was given as the name of a definition -/
  | nameNotSymbol (text : String)
  | parameterNotSymbol (parameter : Expr)
  | parameterKeyword (name : Symbol)
  | parameterDuplicate (name : Symbol)

inductive NumberFault where
  /-- the function is not defined at this number -/
  | domain
  /-- a count came out undefined -/
  | undefinedCount
  /-- a count came out infinite -/
  | infiniteCount
  /-- the modulus of a finite complex number is beyond all finite numbers -/
  | modulusOverflow
  /-- the inverse of a complex power that vanished -/
  | vanishedPower
  /-- the angle of a complex number off the real axis vanished -/
  | vanishedAngle
deriving DecidableEq, Repr

/-- Why an evaluation has no value. -/
inductive EvalError where
  | unbound (name : Symbol)
  | mismatch (cause : Mismatch)
  | arity (cause : ArityFault)
  | notCallable (cause : NotCallable)
  | malformed (cause : Malformed)
  /-- evaluation nested too deep; the limit is given where it was configured -/
  | stackExhausted (limit : Option Int)
  | number (fault : NumberFault)

/-- The kinds of error that belong to the language. -/
inductive ErrorKind where
  | unboundSymbol | typeMismatch | arityMismatch | notCallable | malformedForm | stackExhausted
deriving DecidableEq, Repr

def ErrorKind.name : ErrorKind → String
  | unboundSymbol => "unbound-symbol"
  | typeMismatch => "type-mismatch"
  | arityMismatch => "arity-mismatch"
  | notCallable => "not-callable"
  | malformedForm => "malformed-special-form"
  | stackExhausted => "stack-exhausted"

/-- Whether an error of this kind ends the whole evaluation for good. -/
def ErrorKind.isFatal (k : ErrorKind) : Bool := k == stackExhausted

def Mismatch.text : Mismatch → String
  | notNumbers b => "arguments to " ++ b.name ++ " must be numbers"
  | notRealNumbers b => "arguments to " ++ b.name ++ " must be real numbers"
  | notComplex b => "argument to " ++ b.name ++ " must be complex"
  | notList b => "argument to " ++ b.name ++ " must be a list"
  | emptyList b => "argument to " ++ b.name ++ " is an empty list"
  | divisionByZero => "division by zero"
  | zeroPower => "zero cannot be raised to a negative or complex power"
  | powerOutOfRange => "result of ^ is out of range"
  | lnOfZero => "ln of zero is undefined"
  | lnNotPositive => "argument to ln must be positive"
  | rangeReversed => "range lower bound exceeds upper bound"
  | rangeStep => "range step must be positive"
  | lineEnds => "arguments to make-line must be points"
  | labelText => "argument to make-text must be a string"
  | spreadNotList k => "second argument to " ++ k.name ++ " must evaluate to a list"
  | propertyKey => "property name must be a string"
  | notPlotObject key target =>
    "cannot set property " ++ key ++ " on " ++ target.display ++ ": not a plot object"
  | negativeHint key => key ++ " must be a non-negative number"
  | textScaleHint => "text-scale must be a positive number"
  | textRotationHint => "text-rotation must be a number"
  | positionHint => "position must be a point"
  | objectNameHint => "object-name must be one of point, line, text"
  | optionsNotList => "plot options must be a list"
  | optionEntry entry => "plot option " ++ entry.display ++ " is not a (name value) pair"
  | unknownOption key => "unknown plot option " ++ key
  | textScaleOption => "text-scale option must be a positive number"
  | labelOption key => key ++ " option must be a string"
  | plotData => "discrete-plot data must be a non-empty list"
  | plotEntry entry => "plot data entry " ++ entry.display ++ " is not an (x y) pair"
  | plotBounds => "continuous-plot bounds must satisfy lower < upper"
  | sampleNotNumber value => "continuous-plot procedure returned non-number " ++ value.display

def ArityFault.text : ArityFault → String
  | builtin b allowed got =>
    b.name ++ " expects " ++ " or ".intercalate (allowed.map toString) ++ " argument(s), got "
      ++ toString got
  | lambda c got =>
    "procedure " ++ c.text ++ " expects " ++ toString c.formals.length ++ " argument(s), got "
      ++ toString got

def NotCallable.text : NotCallable → String
  | head a => a.text ++ " is not a procedure"
  | value proc => proc.display ++ " is not a procedure"
  | keyword given form =>
    "special form " ++ given.name ++ " cannot be used as a procedure in " ++ form.name
  | argument form proc =>
    "first argument to " ++ form.name ++ " is not a procedure: " ++ proc.display

def Keyword.requirement : Keyword → String
  | define => "define requires exactly 2 arguments"
  | sequence => "begin requires at least one expression"
  | lambda => "lambda requires a parameter list and a body"
  | apply => "apply expects exactly two arguments: procedure and argument list"
  | map => "map expects exactly two arguments: procedure and list"
  | setProperty => "set-property requires exactly 3 arguments"
  | getProperty => "get-property requires exactly 2 arguments"
  | discretePlot => "discrete-plot requires data and optional options"
  | continuousPlot => "continuous-plot requires a procedure, bounds and optional options"

def Malformed.text : Malformed → String
  | arguments k => k.requirement
  | definedNotSymbol => "first argument to define must be a symbol"
  | redefinesKeyword k => "attempt to redefine special form " ++ k.name
  | redefinesBuiltin name => "attempt to redefine builtin " ++ name.name
  | nameNotSymbol text => "Cannot define " ++ text ++ " as a symbol"
  | parameterNotSymbol parameter => "lambda parameter " ++ parameter.display ++ " is not a symbol"
  | parameterKeyword name => "lambda parameter cannot be special form " ++ name.name
  | parameterDuplicate name => "duplicate lambda parameter " ++ name.name

def NumberFault.text : NumberFault → String
  | domain => "math domain error"
  | undefinedCount => "cannot convert float NaN to integer"
  | infiniteCount => "cannot convert float infinity to integer"
  | modulusOverflow => "absolute value too large"
  | vanishedPower => "0.0 to a negative or complex power"
  | vanishedAngle => "math range error"

namespace EvalError

/-- The kind of an error; number faults have none. -/
def kind? : EvalError → Option ErrorKind
  | unbound _ => some .unboundSymbol
  | mismatch _ => some .typeMismatch
  | arity _ => some .arityMismatch
  | notCallable _ => some .notCallable
  | malformed _ => some .malformedForm
  | stackExhausted _ => some .stackExhausted
  | number _ => none

def reason : EvalError → String
  | unbound name => "unknown symbol " ++ name.name
  | mismatch cause => cause.text
  | arity cause => cause.text
  | notCallable cause => cause.text
  | malformed cause => cause.text
  | stackExhausted (some limit) => "maximum recursion depth " ++ toString limit ++ " exceeded"
  | stackExhausted none => "maximum recursion depth exceeded"
  | number fault => fault.text

def message (e : EvalError) : String :=
  if e.kind?.isSome then "Error during evaluation: " ++ e.reason else e.reason

end EvalError
end PlotLang
