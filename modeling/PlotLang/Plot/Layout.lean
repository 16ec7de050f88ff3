import PlotLang.Plot.Extent
import PlotLang.Plot.Options
import PlotLang.Scalar

/-!
Layout of plots. Data coordinates are scaled so that the bounds of the data become a box of twenty
by twenty units, and everything drawn is an item in scaled coordinates:

* the frame: the four edges of the box, and the axes where they cross the bounds;
* tick labels at the bounds, two units below and to the left of the box;
* the title above and the axis labels below and to the left, three units off the box;
* for data points, a dot each and a stem to the horizontal axis or to the nearest edge;
* for a curve, the segments between its samples.
-/

namespace PlotLang.Plot

/-- An item of a plot in scaled coordinates. -/
inductive Item (α : Type) where
  /-- a data point -/
  | dot (position : Point α)
  /-- a straight line -/
  | segment (start stop : Point α)
  /-- a text; it may be turned by a quarter to read along the vertical axis -/
  | label (text : String) (position : Point α) (turned : Bool)
deriving DecidableEq, Repr

/-- The bounds of the data of a plot. -/
structure Layout (α : Type) where
  xmin : α
  xmax : α
  ymin : α
  ymax : α
deriving DecidableEq, Repr

namespace Layout

variable {α : Type} [NatCast α] [Add α] [Sub α] [Mul α] [Div α] [BEq α]

/-- The horizontal scale. Bounds that coincide count as one apart. -/
def sx (l : Layout α) : α := (20 : Nat) / orOne (l.xmax - l.xmin)

/-- The vertical scale. Bounds that coincide count as one apart. -/
def sy (l : Layout α) : α := (20 : Nat) / orOne (l.ymax - l.ymin)

def left (l : Layout α) : α := l.xmin * l.sx

def right (l : Layout α) : α := l.xmax * l.sx

def bottom (l : Layout α) : α := l.ymin * l.sy

def top (l : Layout α) : α := l.ymax * l.sy

/-- A point of the data in scaled coordinates. -/
def place (l : Layout α) (p : Point α) : Point α := ⟨p.x * l.sx, p.y * l.sy⟩

/-- The edges of the box: upper, lower, left and right. -/
def edges (l : Layout α) : List (Item α) :=
  [.segment ⟨l.left, l.top⟩ ⟨l.right, l.top⟩,
    .segment ⟨l.left, l.bottom⟩ ⟨l.right, l.bottom⟩,
    .segment ⟨l.left, l.bottom⟩ ⟨l.left, l.top⟩,
    .segment ⟨l.right, l.bottom⟩ ⟨l.right, l.top⟩]

/-- The texts at the bounds, written by `tick`. -/
def tickLabels (l : Layout α) (tick : α → String) : List (Item α) :=
  [.label (tick l.xmin) ⟨l.left, l.bottom - (2 : Nat)⟩ false,
    .label (tick l.xmax) ⟨l.right, l.bottom - (2 : Nat)⟩ false,
    .label (tick l.ymin) ⟨l.left - (2 : Nat), l.bottom⟩ false,
    .label (tick l.ymax) ⟨l.left - (2 : Nat), l.top⟩ false]

/-- The title and the axis labels that the options ask for. -/
def titles (l : Layout α) (o : Options) : List (Item α) :=
  let xmid := (l.left + l.right) / (2 : Nat)
  let ymid := (l.bottom + l.top) / (2 : Nat)
  (o.title.map fun t => Item.label t ⟨xmid, l.top + (3 : Nat)⟩ false).toList
    ++ (o.abscissaLabel.map fun t => Item.label t ⟨xmid, l.bottom - (3 : Nat)⟩ false).toList
    ++ (o.ordinateLabel.map fun t => Item.label t ⟨l.left - (3 : Nat), ymid⟩ true).toList

def labels (l : Layout α) (tick : α → String) (o : Options) : List (Item α) :=
  l.tickLabels tick ++ l.titles o

variable [LE α] [DecidableLE α]

def axes (l : Layout α) : List (Item α) :=
  let zero : α := (0 : Nat)
  (if l.xmin ≤ zero ∧ zero ≤ l.xmax then [.segment ⟨zero, l.bottom⟩ ⟨zero, l.top⟩] else [])
    ++ (if l.ymin ≤ zero ∧ zero ≤ l.ymax then [.segment ⟨l.left, zero⟩ ⟨l.right, zero⟩] else [])

def frame (l : Layout α) : List (Item α) := l.edges ++ l.axes

/-- The layout of a curve with the given horizontal bounds; the vertical ones are those of its
samples. -/
def ofCurve (xmin xmax : α) (samples : Series α) : Layout α :=
  { xmin, xmax
    ymin := Extent.least samples.first.y (samples.rest.map Point.y)
    ymax := Extent.greatest samples.first.y (samples.rest.map Point.y) }

def curve (l : Layout α) (samples : Series α) : List (Item α) :=
  samples.segments.map fun (p, q) => .segment (l.place p) (l.place q)

variable [LT α] [DecidableLT α]

def ofData (data : Series α) : Layout α :=
  { xmin := firstLeast data.first.x (data.rest.map Point.x)
    xmax := firstGreatest data.first.x (data.rest.map Point.x)
    ymin := firstLeast data.first.y (data.rest.map Point.y)
    ymax := firstGreatest data.first.y (data.rest.map Point.y) }

/-- The height at which stems end: the horizontal axis, or the edge nearest to it. -/
def stemBase (l : Layout α) : α :=
  firstLeast (firstGreatest ((0 : Nat) : α) [l.ymin]) [l.ymax]

/-- A dot and a stem for each data point. -/
def stems (l : Layout α) (data : Series α) : List (Item α) :=
  data.toList.flatMap fun p =>
    [.dot (l.place p), .segment (l.place p) (l.place ⟨p.x, l.stemBase⟩)]

end Layout

section Items

variable {α : Type} [NatCast α] [Add α] [Sub α] [Mul α] [Div α] [BEq α] [LE α] [DecidableLE α]
  [LT α] [DecidableLT α]

def discreteItems (tick : α → String) (o : Options) (data : Series α) : List (Item α) :=
  let l := Layout.ofData data
  l.frame ++ l.stems data ++ l.labels tick o

/-- The items of a plot of a curve through the given samples. -/
def continuousItems (tick : α → String) (o : Options) (xmin xmax : α) (samples : Series α) :
    List (Item α) :=
  let l := Layout.ofCurve xmin xmax samples
  l.frame ++ l.curve samples ++ l.labels tick o

end Items
end PlotLang.Plot
