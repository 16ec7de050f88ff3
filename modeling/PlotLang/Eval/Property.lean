import PlotLang.Eval.Apply

/-!
The rules of the forms that set and read properties. Only plot objects take properties, and a
property that a renderer would use must have a value that it can use.
-/

namespace PlotLang

/-- The shapes that the property `object-name` may name. -/
def shapeNames : List String := ["point", "line", "text"]

def Mismatch.unless (m : Mismatch) (condition : Bool) : Except Mismatch Unit :=
  if condition then .ok () else .error m

/-- Checks the value of a property against what a renderer needs. Other keys take any value. -/
def checkProperty (key : String) (value : Expr) : Except Mismatch Unit :=
  if key == "size" || key == "thickness" then
    (Mismatch.negativeHint key).unless (value.asNumber?.any fun x => !(x < 0.0))
  else if key == "text-scale" then
    Mismatch.textScaleHint.unless (value.asNumber?.any fun x => !(x ≤ 0.0))
  else if key == "text-rotation" then Mismatch.textRotationHint.unless value.asNumber?.isSome
  else if key == "position" then Mismatch.positionHint.unless value.isPoint
  else if key == Expr.objectNameKey then
    Mismatch.objectNameHint.unless (value.headString?.any shapeNames.contains)
  else .ok ()

/-- A plot object with a property set, if it takes the property. -/
def withProperty (key : String) (value target : Expr) : Except EvalError Expr :=
  if target.isPlotObject then
    match checkProperty key value with
    | .ok () => .ok (target.setProperty key value)
    | .error m => .error (.mismatch m)
  else .error (.mismatch (.notPlotObject key target))

namespace Level

def evalKey (lv : Level) (e : Expr) (s : ScopeId) : EvalM String := do
  let key ← lv.eval e s
  match key.asString? with
  | some text => return text
  | none => throw (.mismatch .propertyKey)

/-- `(set-property key value target)` has the value of the target with the property set; the target
itself does not change. -/
def setProperty (lv : Level) (args : List Expr) (s : ScopeId) : EvalM Expr :=
  match args with
  | [keyExpr, valueExpr, targetExpr] => do
    let key ← lv.evalKey keyExpr s
    let value ← lv.eval valueExpr s
    let target ← lv.eval targetExpr s
    EvalM.ofExcept (withProperty key value target)
  | _ => throw (.malformed (.arguments .setProperty))

/-- `(get-property key target)` has the value of a property, or no value where it is missing. -/
def getProperty (lv : Level) (args : List Expr) (s : ScopeId) : EvalM Expr :=
  match args with
  | [keyExpr, targetExpr] => do
    let key ← lv.evalKey keyExpr s
    let target ← lv.eval targetExpr s
    return (target.property? key).getD Expr.none
  | _ => throw (.malformed (.arguments .getProperty))

end Level
end PlotLang
