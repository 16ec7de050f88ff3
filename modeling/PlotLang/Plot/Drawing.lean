import PlotLang.Expr.PlotObject
import PlotLang.Plot.Layout

/-!
Plot items as values. Dots are points of size one half, segments are lines of thickness zero, and
labels are texts with position, scale and rotation.
-/

namespace PlotLang.Plot

/-- The text of a bound at its tick: two significant digits. -/
def tickText (x : Float) : String := significant 2 x

def Point.toExpr (p : Point Float) : Expr := Expr.point p.x p.y

/-- The rotation of a text: none, or a quarter turn clockwise. -/
def rotation (turned : Bool) : Float := if turned then -3.141592653589793 / 2.0 else 0.0

/-- An item as a value, its text at the given scale. -/
def Item.toExpr (scale : Float) : Item Float → Expr
  | .dot p => p.toExpr.setProperty "size" (Expr.number 0.5)
  | .segment a b => (Expr.line a.toExpr b.toExpr).setProperty "thickness" (Expr.number 0.0)
  | .label text p turned =>
    (((Expr.label text).setProperty "position" p.toExpr).setProperty "text-scale"
      (Expr.number scale)).setProperty "text-rotation" (Expr.number (rotation turned))

end PlotLang.Plot
