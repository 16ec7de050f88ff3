import PlotLang.Plot.Layout

/-!
Bends of a sampled curve. A vertex is bent if, in scaled coordinates, the angle between the segments
that meet in it is less than 170 degrees. Segments of length zero count as straight, and so do those
whose angle is undefined.
-/

namespace PlotLang.Plot

/-- The cosine of the angle between two vectors, kept within its bounds; that of opposite vectors if
one of them vanishes. -/
def cosine (v w : Point Float) : Float :=
  let norms := (v.x * v.x + v.y * v.y).sqrt * (w.x * w.x + w.y * w.y).sqrt
  let c := if norms == 0.0 then -1.0 else (v.x * w.x + v.y * w.y) / norms
  if c < -1.0 then -1.0 else if 1.0 < c then 1.0 else c

/-- Half a turn in degrees over half a turn in radians. -/
def degreesPerRadian : Float := 180.0 / 3.141592653589793

/-- Whether a vertex between its two neighbours is bent. All three are in scaled coordinates. -/
def isBent (before vertex after : Point Float) : Bool :=
  let v : Point Float := ⟨before.x - vertex.x, before.y - vertex.y⟩
  let w : Point Float := ⟨after.x - vertex.x, after.y - vertex.y⟩
  (cosine v w).acos * degreesPerRadian < 170.0

/-- The flags of the inner vertices of a sampled curve. The scale is that of a plot of the curve. -/
def bends (samples : Series Float) : List Bool :=
  let l := Layout.ofCurve samples.first.x samples.last.x samples
  let points := samples.toList.map l.place
  List.zipWith (fun (before, vertex) after => isBent before vertex after)
    (points.zip points.tail) points.tail.tail

end PlotLang.Plot
