import PlotLang.Expr

/-!
Plot objects: values that a renderer draws. A plot object is a plot, or a value that names its
shape in the property `object-name`: a point is a list of two numbers, a line a list of two points,
a text a string. The other properties are hints for drawing, with defaults.
-/

namespace PlotLang.Expr

/-- The key of the property that names the shape of a plot object. -/
def objectNameKey : String := "object-name"

def point (x y : Float) : Expr :=
  (list [number x, number y]).setProperty objectNameKey (string "point")

def line (start stop : Expr) : Expr :=
  (list [start, stop]).setProperty objectNameKey (string "line")

/-- A piece of text to be drawn. -/
def label (text : String) : Expr := (string text).setProperty objectNameKey (string "text")

/-- The shape that a value claims to have. -/
def objectName? (e : Expr) : Option String := (e.property? objectNameKey).bind headString?

/-- Whether a value accepts properties. -/
def isPlotObject (e : Expr) : Bool := e.objectName?.isSome || e.isPlot

def isPoint (e : Expr) : Bool := e.objectName? == some "point" && e.asPair?.isSome

def isLine (e : Expr) : Bool :=
  e.objectName? == some "line" &&
    match e.head, e.tail with
    | .list, [a, b] => a.isPoint && b.isPoint
    | _, _ => false

def isText (e : Expr) : Bool := e.objectName? == some "text" && e.asString?.isSome

/-- Whether a value is a plot whose items can all be drawn. -/
def isRenderable (e : Expr) : Bool :=
  e.isPlot && e.tail.all fun c => c.isPoint || c.isLine || c.isText

/-- The number under a key, or a default where there is none. -/
def numberProperty (e : Expr) (key : String) (default : Float) : Float :=
  ((e.property? key).bind asNumber?).getD default

def size (e : Expr) : Float := e.numberProperty "size" 3.0

def thickness (e : Expr) : Float := e.numberProperty "thickness" 2.0

def textScale (e : Expr) : Float := e.numberProperty "text-scale" 2.0

/-- The angle by which a text is turned. -/
def textRotation (e : Expr) : Float := e.numberProperty "text-rotation" 0.0

def position (e : Expr) : Expr :=
  match e.property? "position" with
  | some p => if p.isPoint then p else point 0.0 0.0
  | Option.none => point 0.0 0.0

end PlotLang.Expr
