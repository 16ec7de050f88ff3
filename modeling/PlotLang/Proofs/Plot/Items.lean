import Mathlib.Data.List.Chain
import PlotLang.Proofs.Application
import PlotLang.Proofs.Correspondence.Values
import PlotLang.Proofs.Plot.Extent
import PlotLang.Proofs.Plot.Options
import PlotLang.Proofs.Plot.Sampling

/-! The items of a plot and their order. Every plot is a frame, a body and texts.
The body is what the data ask for: a dot and a stem for each entry, or a chain of
lines through the samples of a curve. The rest depends on the bounds of the data
and on the options only. -/
namespace PlotLang

open Plot

namespace Expr
variable (e : Expr)

/-- A point as plots draw it. -/
structure IsMark (p : Point Float) : Prop where
  point : e.isPoint = true
  place : e.asPair? = some (p.x, p.y)
  size : e.property? "size" = some (.number 0.5)

/-- A line as plots draw it, between two places. -/
structure IsStroke (p q : Point Float) : Prop where
  line : e.isLine = true
  ends : e.tail.map asPair? = [some (p.x, p.y), some (q.x, q.y)]
  thickness : e.property? "thickness" = some (.number 0.0)

/-- A text as plots draw it, at a place. -/
structure IsCaption (text : String) (p : Point Float) (scale rotation : Float) : Prop where
  kind : e.isText = true
  text : e.headString? = some text
  position : ∃ q, e.property? "position" = some q ∧ q.isPoint = true ∧
    q.asPair? = some (p.x, p.y)
  textScale : e.property? "text-scale" = some (.number scale)
  textRotation : e.property? "text-rotation" = some (.number rotation)

/-- A value that draws an item, texts at a scale. A turned text is turned by a quarter. -/
def Draws (scale : Float) : Item Float → Prop
  | .dot p => e.IsMark p
  | .segment p q => e.IsStroke p q
  | .label text p turned =>
      e.IsCaption text p scale (if turned then -3.141592653589793 / 2.0 else 0.0)

end Expr

theorem Expr.isRenderable_plot (name : String) (items : List Expr) :
    (Expr.plot name items).isRenderable = items.all Expr.isItem := rfl

namespace Plot

/-- Every kind of item is drawn with the properties that its kind has. -/
theorem Item.draws_toExpr (scale : Float) (item : Item Float) :
    (item.toExpr scale).Draws scale item := by
  cases item with
  | dot p => exact ⟨rfl, rfl, rfl⟩
  | segment p q => exact ⟨rfl, rfl, rfl⟩
  | label text p turned => exact ⟨rfl, rfl, ⟨p.toExpr, rfl, rfl, rfl⟩, rfl, rfl⟩

/-- Values that draw items one by one, in the same order. -/
def Drawn (scale : Float) (es : List Expr) (items : List (Item Float)) : Prop :=
  List.Forall₂ (fun e item => e.Draws scale item) es items

/-- Items are drawn one by one, so their order is kept. -/
theorem drawn_map (scale : Float) (items : List (Item Float)) :
    Drawn scale (items.map (Item.toExpr scale)) items := by
  rw [Drawn, List.forall₂_map_left_iff, List.forall₂_same]
  exact fun item _ => item.draws_toExpr scale

/-- The items of a plot by what they are for. -/
structure Sections where
  edges : List Expr
  vertical : List Expr
  horizontal : List Expr
  body : List Expr
  ticks : List Expr
  titles : List Expr

namespace Sections

/-- All items in the order in which a plot has them. -/
def items (p : Sections) : List Expr :=
  p.edges ++ p.vertical ++ p.horizontal ++ p.body ++ p.ticks ++ p.titles

/-- Items as they must be for the bounds of a plot and the entries of its options:
four lines between the corners of the box, a line through zero for each axis that
crosses it, the bounds beside the corners, and each text that the options give at
its place. -/
structure Fits (p : Sections) (l : Layout Float) (entries : List Expr) : Prop where
  edges : Drawn (Options.scaleIn entries) p.edges
    [.segment ⟨l.left, l.top⟩ ⟨l.right, l.top⟩,
      .segment ⟨l.left, l.bottom⟩ ⟨l.right, l.bottom⟩,
      .segment ⟨l.left, l.bottom⟩ ⟨l.left, l.top⟩,
      .segment ⟨l.right, l.bottom⟩ ⟨l.right, l.top⟩]
  vertical : Drawn (Options.scaleIn entries) p.vertical
    (if l.xmin ≤ 0.0 ∧ 0.0 ≤ l.xmax then [.segment ⟨0.0, l.bottom⟩ ⟨0.0, l.top⟩] else [])
  horizontal : Drawn (Options.scaleIn entries) p.horizontal
    (if l.ymin ≤ 0.0 ∧ 0.0 ≤ l.ymax then [.segment ⟨l.left, 0.0⟩ ⟨l.right, 0.0⟩] else [])
  ticks : Drawn (Options.scaleIn entries) p.ticks
    [.label (significant 2 l.xmin) ⟨l.left, l.bottom - 2.0⟩ false,
      .label (significant 2 l.xmax) ⟨l.right, l.bottom - 2.0⟩ false,
      .label (significant 2 l.ymin) ⟨l.left - 2.0, l.bottom⟩ false,
      .label (significant 2 l.ymax) ⟨l.left - 2.0, l.top⟩ false]
  titles : Drawn (Options.scaleIn entries) p.titles
    (((Options.captionIn entries .title).map fun text =>
        .label text ⟨(l.left + l.right) / 2.0, l.top + 3.0⟩ false).toList ++
      ((Options.captionIn entries .abscissaLabel).map fun text =>
        .label text ⟨(l.left + l.right) / 2.0, l.bottom - 3.0⟩ false).toList ++
      ((Options.captionIn entries .ordinateLabel).map fun text =>
        .label text ⟨l.left - 3.0, (l.bottom + l.top) / 2.0⟩ true).toList)
  mentioned : p.titles.map Expr.headString? =
    (Options.captionKeys entries).map (Options.captionIn entries)

end Sections

/-- The places of a layout. The range of the data becomes twenty units wide and
high, a range of nothing counting as one, and stems end at zero or at the bound
nearest to it. -/
structure Layout.Scaled (l : Layout Float) : Prop where
  place : ∀ p, l.place p =
    ⟨p.x * (20.0 / if l.xmax - l.xmin == 0.0 then 1.0 else l.xmax - l.xmin),
      p.y * (20.0 / if l.ymax - l.ymin == 0.0 then 1.0 else l.ymax - l.ymin)⟩
  lower : l.place ⟨l.xmin, l.ymin⟩ = ⟨l.left, l.bottom⟩
  upper : l.place ⟨l.xmax, l.ymax⟩ = ⟨l.right, l.top⟩
  base : l.stemBase =
    let above := if 0.0 < l.ymin then l.ymin else 0.0
    if l.ymax < above then l.ymax else above

/-- A value that is a plot with a given body, all of it drawn alike. -/
structure Shows (v : Expr) (name : String) (l : Layout Float) (entries body : List Expr) :
    Prop where
  head : v.head = .discrete name
  renderable : v.isRenderable = true
  scaled : l.Scaled
  items : ∃ p : Sections, p.Fits l entries ∧ p.body = body ∧ v.tail = p.items
  lines : ∀ e ∈ v.tail, e.isLine = true → e.property? "thickness" = some (.number 0.0)
  texts : ∀ e ∈ v.tail, e.isText = true →
    ∃ text p rotation, e.IsCaption text p (Options.scaleIn entries) rotation

/-- How many axes cross the box. -/
def Layout.axisCount (l : Layout Float) : Nat :=
  (if l.xmin ≤ 0.0 ∧ 0.0 ≤ l.xmax then 1 else 0) + if l.ymin ≤ 0.0 ∧ 0.0 ≤ l.ymax then 1 else 0

/-- The count of items of a plot, by the counts of its parts. -/
theorem Shows.length_tail {v : Expr} {name : String} {l : Layout Float} {entries body : List Expr}
    (h : Shows v name l entries body) :
    v.tail.length =
      8 + l.axisCount + body.length + (Options.captionKeys entries).length := by
  obtain ⟨p, hFits, hBody, hTail⟩ := h.items
  have hTitles : p.titles.length = (Options.captionKeys entries).length := by
    simpa using congrArg List.length hFits.mentioned
  have hVertical := hFits.vertical.length_eq
  have hHorizontal := hFits.horizontal.length_eq
  rw [apply_ite List.length] at hVertical hHorizontal
  simp only [hTail, Sections.items, List.length_append, hFits.edges.length_eq, hVertical,
    hHorizontal, hFits.ticks.length_eq, hTitles, hBody, Layout.axisCount, List.length_cons,
    List.length_nil, Nat.zero_add]
  omega

/-! The frame and the texts of a layout. -/

namespace Layout
variable (l : Layout Float)

theorem natCast_three : ((3 : Nat) : Float) = 3.0 := by decide +kernel

theorem natCast_twenty : ((20 : Nat) : Float) = 20.0 := by decide +kernel

/-- The places are the data multiplied by the scale, with nothing subtracted. -/
theorem scaled : l.Scaled where
  place _ := by
    simp only [Layout.place, sx, sy, orOne, natCast_twenty]
    rfl
  lower := rfl
  upper := rfl
  base := rfl

/-- The titles say what the options say, in the same order. -/
theorem headString?_titles (o : Options) (scale : Float) :
    (l.titles o).map (fun item => (item.toExpr scale).headString?) =
      (o.title.toList ++ o.abscissaLabel.toList ++ o.ordinateLabel.toList).map some := by
  unfold titles
  cases o.title <;> cases o.abscissaLabel <;> cases o.ordinateLabel <;> rfl

end Layout

section Shows
variable {l : Layout Float} {o : Options} {entries : List Expr} (hGiven : o.Given entries)
include hGiven

/-- The frame and the texts fit whatever the body is. -/
theorem exists_fits (body : List (Item Float)) :
    ∃ p : Sections, p.Fits l entries ∧ p.body = body.map (Item.toExpr o.textScale) ∧
      (l.frame ++ body ++ l.labels tickText o).map (Item.toExpr o.textScale) = p.items := by
  let draw := List.map (Item.toExpr o.textScale)
  let p : Sections :=
    { edges := draw l.edges
      vertical := draw
        (if l.xmin ≤ 0.0 ∧ 0.0 ≤ l.xmax then [.segment ⟨0.0, l.bottom⟩ ⟨0.0, l.top⟩] else [])
      horizontal := draw
        (if l.ymin ≤ 0.0 ∧ 0.0 ≤ l.ymax then [.segment ⟨l.left, 0.0⟩ ⟨l.right, 0.0⟩] else [])
      body := draw body
      ticks := draw (l.tickLabels tickText)
      titles := draw (l.titles o) }
  have hDrawn (items : List (Item Float)) : Drawn (Options.scaleIn entries) (draw items) items :=
    hGiven.textScale_eq ▸ drawn_map o.textScale items
  refine ⟨p, ⟨hDrawn _, hDrawn _, hDrawn _, hDrawn _, ?_, ?_⟩, rfl, ?_⟩
  · rw [hGiven.title_eq, hGiven.abscissaLabel_eq, hGiven.ordinateLabel_eq,
      ← Layout.natCast_three]
    exact hDrawn (l.titles o)
  · rw [← hGiven.captions_eq, ← l.headString?_titles o o.textScale]
    exact List.map_map
  · simp only [p, draw, Sections.items, Layout.frame, Layout.axes, Layout.labels,
      List.map_append, List.append_assoc]
    rfl

/-- What is laid out with a body is a plot with that body. -/
theorem shows_plot (name : String) (body : List (Item Float)) :
    Shows (.plot name ((l.frame ++ body ++ l.labels tickText o).map (Item.toExpr o.textScale)))
      name l entries (body.map (Item.toExpr o.textScale)) where
  head := rfl
  renderable := by
    rw [Expr.isRenderable_plot, List.all_eq_true]
    intro e he
    obtain ⟨item, _, rfl⟩ := List.mem_map.mp he
    exact item.isItem_toExpr o.textScale
  scaled := l.scaled
  items := exists_fits hGiven body
  lines := by
    intro e he hLine
    obtain ⟨item, _, rfl⟩ := List.mem_map.mp he
    cases item with
    | segment a b => rfl
    | dot a => cases hLine
    | label text a turned => cases hLine
  texts := by
    intro e he hText
    obtain ⟨item, _, rfl⟩ := List.mem_map.mp he
    cases item with
    | label text a turned =>
        rw [← hGiven.textScale_eq]
        exact ⟨text, a, _, Item.draws_toExpr o.textScale (.label text a turned)⟩
    | dot a => cases hText
    | segment a b => cases hText

end Shows

/-! The bounds of the data. -/

/-- The bounds of a layout are the extremes of its points. -/
structure Layout.Bounds (l : Layout Float) (points : Series Float) : Prop where
  xmin : LeastOf l.xmin (points.toList.map Point.x)
  xmax : GreatestOf l.xmax (points.toList.map Point.x)
  ymin : LeastOf l.ymin (points.toList.map Point.y)
  ymax : GreatestOf l.ymax (points.toList.map Point.y)

/-- The layout of data points takes its bounds from the points. -/
theorem Layout.bounds_ofData (points : Series Float) : (Layout.ofData points).Bounds points where
  xmin := leastOf_firstLeast points.first.x (points.rest.map Point.x)
  xmax := greatestOf_firstGreatest points.first.x (points.rest.map Point.x)
  ymin := leastOf_firstLeast points.first.y (points.rest.map Point.y)
  ymax := greatestOf_firstGreatest points.first.y (points.rest.map Point.y)

/-- The bounds of the layout of a curve are the given ones and the extremes of its
values. -/
structure Layout.CurveBounds (l : Layout Float) (a b : Float) (samples : Series Float) :
    Prop where
  xmin : l.xmin = a
  xmax : l.xmax = b
  ymin : LeastOf l.ymin (samples.toList.map Point.y)
  ymax : GreatestOf l.ymax (samples.toList.map Point.y)

/-- The layout of a curve takes its horizontal bounds as given and the vertical
ones from the samples. -/
theorem Layout.curveBounds_ofCurve (a b : Float) (samples : Series Float) :
    (Layout.ofCurve a b samples).CurveBounds a b samples where
  xmin := rfl
  xmax := rfl
  ymin := Extent.leastOf_least samples.first.y (samples.rest.map Point.y)
  ymax := Extent.greatestOf_greatest samples.first.y (samples.rest.map Point.y)

/-! The bodies. -/

/-- A dot and a stem for each point, which starts at the dot and ends straight
above or below it. -/
theorem Layout.exists_marks (l : Layout Float) (data : Series Float) (scale : Float) :
    ∃ marks : List (Expr × Expr),
      (l.stems data).map (Item.toExpr scale) = marks.flatMap (fun mark => [mark.1, mark.2]) ∧
      List.Forall₂ (fun p mark => mark.1.IsMark (l.place p) ∧
        mark.2.IsStroke (l.place p) (l.place ⟨p.x, l.stemBase⟩)) data.toList marks := by
  let mark (p : Point Float) : Expr × Expr :=
    ((Item.dot (l.place p)).toExpr scale,
      (Item.segment (l.place p) (l.place ⟨p.x, l.stemBase⟩)).toExpr scale)
  refine ⟨data.toList.map mark, ?_, ?_⟩
  · rw [Layout.stems, List.map_flatMap, List.flatMap_map]
    rfl
  · rw [List.forall₂_map_right_iff, List.forall₂_same]
    exact fun p _ => ⟨Item.draws_toExpr scale (.dot _), Item.draws_toExpr scale (.segment _ _)⟩

/-- Each segment of a series begins where the one before it ends. -/
theorem Series.isChain_segments {α : Type} (samples : Series α) :
    samples.segments.IsChain fun s t => s.2 = t.1 := by
  obtain ⟨first, rest⟩ := samples
  simp only [Series.segments, Series.toList]
  induction rest generalizing first with
  | nil => exact .nil
  | cons second rest ih =>
      cases rest with
      | nil => exact .singleton _
      | cons third rest => exact .cons_cons rfl (ih second)

/-- The lines of a curve: one between each two samples, and each one starts where
the one before it ends. -/
theorem Layout.strokes_curve (l : Layout Float) (samples : Series Float) (scale : Float) :
    let strokes := (l.curve samples).map (Item.toExpr scale)
    strokes.length = samples.size - 1 ∧
    List.Forall₂ (fun s e => e.IsStroke (l.place s.1) (l.place s.2)) samples.segments strokes ∧
    strokes.IsChain fun e f => ∃ p, e.tail[1]? = some p ∧ f.tail[0]? = some p := by
  intro strokes
  have hStrokes : strokes = samples.segments.map fun s =>
      (Item.segment (l.place s.1) (l.place s.2)).toExpr scale :=
    List.map_map
  refine ⟨?_, ?_, ?_⟩
  · have hSegments := samples.length_segments
    rw [hStrokes, List.length_map]
    omega
  · rw [hStrokes, List.forall₂_map_right_iff, List.forall₂_same]
    exact fun s _ => Item.draws_toExpr scale (.segment _ _)
  · rw [hStrokes, List.isChain_map]
    refine samples.isChain_segments.imp fun s t h => ?_
    exact ⟨(l.place s.2).toExpr, rfl, congrArg (fun q => some (l.place q).toExpr) h.symm⟩

end Plot

/-! Evaluation of the two forms, taken apart. -/

section Forms
variable {lv : Level} {s : ScopeId} {m m' : Machine} {v : Expr}

/-- The entries of the options of a plot, which stand behind its other arguments:
none, or those of a list. -/
def OptionEntries (lv : Level) (s : ScopeId) (m : Machine) (rest entries : List Expr)
    (m' : Machine) : Prop :=
  (rest = [] ∧ entries = [] ∧ m' = m) ∨ ∃ e given, rest = [e] ∧ lv.eval e s m = .ok given m' ∧
    given.isList = true ∧ entries = given.tail

/-- A computation that uses no machine leaves it as it is. -/
theorem EvalM.eq_ok_of_ofExcept {α : Type} {x : Except EvalError α} {a : α}
    (h : EvalM.ofExcept x m = .ok a m') : x = .ok a ∧ m' = m := by
  cases x with
  | ok b =>
      cases h
      exact ⟨rfl, rfl⟩
  | error e => cases h

/-- Data are points or lists of two numbers. -/
theorem asPair?_of_plotPoint {entry : Expr} {p : Point Float} (h : plotPoint entry = .ok p) :
    entry.asPair? = some (p.x, p.y) := by
  unfold plotPoint at h
  split at h
  · next x y hPair =>
      cases h
      exact hPair
  · cases h

/-- The bounds of a curve are a pair of numbers, the smaller one first. -/
theorem curveBounds_eq_ok_iff {bounds : Expr} {a b : Float} :
    curveBounds bounds = .ok (a, b) ↔ bounds.asPair? = some (a, b) ∧ a < b := by
  constructor
  · intro h
    obtain ⟨p, hPoint, h⟩ := bind_eq_ok h
    split at h
    · next hLess =>
        cases h
        exact ⟨asPair?_of_plotPoint hPoint, hLess⟩
    · cases h
  · rintro ⟨hPair, hLess⟩
    have hPoint : plotPoint bounds = .ok ⟨a, b⟩ := by rw [plotPoint, hPair]
    rw [curveBounds, hPoint]
    exact if_pos hLess

/-- Options that are accepted come from a list, or are not given at all. -/
theorem exists_of_evalOptions {options : Option Expr} {o : Options}
    (h : lv.evalOptions options s m = .ok o m') :
    ∃ entries, OptionEntries lv s m options.toList entries m' ∧ o.Given entries := by
  cases options with
  | none =>
      cases h
      exact ⟨[], .inl ⟨rfl, rfl, rfl⟩, fun key => rfl⟩
  | some e =>
      obtain ⟨given, m₁, hEval, h⟩ := EvalM.exists_of_bind h
      obtain ⟨hOptions, rfl⟩ := EvalM.eq_ok_of_ofExcept h
      obtain ⟨hList, hGiven, _⟩ := Options.given_of_ofExpr hOptions
      exact ⟨given.tail, .inr ⟨e, given, rfl, hEval, hList, rfl⟩, hGiven⟩

/-- Data that are accepted come from a list with a first entry. -/
theorem exists_of_evalData {e first : Expr} {rest : List Expr}
    (h : lv.evalData e s m = .ok (first, rest) m') :
    ∃ data, lv.eval e s m = .ok data m' ∧ data.isList = true ∧ data.tail = first :: rest := by
  obtain ⟨data, m₁, hEval, h⟩ := EvalM.exists_of_bind h
  cases hHead : data.head with
  | list =>
      cases hTail : data.tail with
      | nil =>
          rw [hHead, hTail] at h
          cases h
      | cons first rest =>
          rw [hHead, hTail] at h
          cases h
          exact ⟨data, hEval, by simp [Expr.isList, hHead], hTail⟩
  | _ =>
      rw [hHead] at h
      cases h

/-- A plot of data points is drawn after everything has been evaluated and read:
the data, then the options, then the points. -/
theorem exists_of_plotData {dataExpr : Expr} {options : Option Expr}
    (h : lv.plotData dataExpr options s m = .ok v m') :
    ∃ data m₁ o m₂ points, lv.eval dataExpr s m = .ok data m₁ ∧ data.isList = true ∧
      lv.evalOptions options s m₁ = .ok o m₂ ∧
      List.Forall₂ (fun entry p => entry.asPair? = some (p.x, p.y)) data.tail points.toList ∧
      v = .plot "discrete" ((discreteItems tickText o points).map (Item.toExpr o.textScale)) := by
  obtain ⟨⟨firstEntry, entries⟩, m₁, hData, h⟩ := EvalM.exists_of_bind h
  obtain ⟨o, m₂, hOptions, h⟩ := EvalM.exists_of_bind h
  obtain ⟨first, m₃, hFirst, h⟩ := EvalM.exists_of_bind h
  obtain ⟨rest, m₄, hRest, h⟩ := EvalM.exists_of_bind h
  obtain ⟨_, _, _, h⟩ := EvalM.exists_of_bind h
  cases h
  obtain ⟨data, hEval, hList, hTail⟩ := exists_of_evalData hData
  obtain ⟨hFirst, _⟩ := EvalM.eq_ok_of_ofExcept hFirst
  obtain ⟨hRest, _⟩ := EvalM.eq_ok_of_ofExcept hRest
  refine ⟨data, m₁, o, m₂, ⟨first, rest⟩, hEval, hList, hOptions, ?_, rfl⟩
  rw [hTail]
  exact .cons (asPair?_of_plotPoint hFirst)
    ((forall₂_of_mapM hRest).imp fun _ _ => asPair?_of_plotPoint)

/-- A plot of a curve is drawn after everything has been evaluated and read: the
procedure, the bounds, the options, then the samples. -/
theorem exists_of_plotCurve {procExpr boundsExpr : Expr} {options : Option Expr}
    (h : lv.plotCurve procExpr boundsExpr options s m = .ok v m') :
    ∃ proc m₁ bounds m₂ a b o m₃ samples m₄,
      lv.evalProcedure .continuousPlot procExpr s m = .ok proc m₁ ∧
      lv.eval boundsExpr s m₁ = .ok bounds m₂ ∧ bounds.asPair? = some (a, b) ∧ a < b ∧
      lv.evalOptions options s m₂ = .ok o m₃ ∧
      Curve.sample bends (lv.sampleProcedure proc) a b m₃ = .ok samples m₄ ∧
      v = .plot "continuous"
        ((continuousItems tickText o a b samples).map (Item.toExpr o.textScale)) := by
  obtain ⟨proc, m₁, hProc, h⟩ := EvalM.exists_of_bind h
  obtain ⟨bounds, m₂, hBounds, h⟩ := EvalM.exists_of_bind h
  obtain ⟨⟨a, b⟩, m₃, hPair, h⟩ := EvalM.exists_of_bind h
  obtain ⟨o, m₄, hOptions, h⟩ := EvalM.exists_of_bind h
  obtain ⟨samples, m₅, hSamples, h⟩ := EvalM.exists_of_bind h
  obtain ⟨_, _, _, h⟩ := EvalM.exists_of_bind h
  cases h
  obtain ⟨hOrdered, rfl⟩ := EvalM.eq_ok_of_ofExcept hPair
  obtain ⟨hPair, hLess⟩ := curveBounds_eq_ok_iff.mp hOrdered
  exact ⟨proc, m₁, bounds, m₃, a, b, o, m₄, samples, m₅, hProc, hBounds, hPair, hLess, hOptions,
    hSamples, rfl⟩

/-- A form that has a value was evaluated by the rule of its keyword. -/
theorem special_of_evalAt {c : Ceiling} {d : Int} {e : Expr} {k : Keyword} {args : List Expr}
    (hForm : e.form = .special k args) (h : evalAt c d e s m = .ok v m') :
    (Level.under c d).special k args s m = .ok v m' := by
  rw [evalAt_eq_step] at h
  split at h
  · rwa [Level.step, hForm] at h
  · cases h

/-- The form has one or two arguments. -/
theorem exists_of_discretePlot {args : List Expr} (h : lv.discretePlot args s m = .ok v m') :
    ∃ dataExpr options, args = dataExpr :: options.toList ∧
      lv.plotData dataExpr options s m = .ok v m' := by
  match args with
  | [dataExpr] => exact ⟨dataExpr, none, rfl, h⟩
  | [dataExpr, options] => exact ⟨dataExpr, some options, rfl, h⟩
  | [] => cases h
  | _ :: _ :: _ :: _ => cases h

/-- The form has two or three arguments. -/
theorem exists_of_continuousPlot {args : List Expr} (h : lv.continuousPlot args s m = .ok v m') :
    ∃ procExpr boundsExpr options, args = procExpr :: boundsExpr :: options.toList ∧
      lv.plotCurve procExpr boundsExpr options s m = .ok v m' := by
  match args with
  | [procExpr, boundsExpr] => exact ⟨procExpr, boundsExpr, none, rfl, h⟩
  | [procExpr, boundsExpr, options] => exact ⟨procExpr, boundsExpr, some options, rfl, h⟩
  | [] => cases h
  | [_] => cases h
  | _ :: _ :: _ :: _ :: _ => cases h

end Forms

/-- What a plot of data points and a plot of a curve are made of, in order. Lines
of a curve meet in one and the same point. -/
theorem plot_items {c : Ceiling} {d : Int} {s : ScopeId} {m m' : Machine} {e v : Expr}
    {args : List Expr} (h : evalAt c d e s m = .ok v m') :
    (e.form = .special .discretePlot args →
      ∃ dataExpr rest data m₁ entries m₂ points marks,
        args = dataExpr :: rest ∧ evalAt c (d + 1) dataExpr s m = .ok data m₁ ∧
        data.isList = true ∧ OptionEntries (.under c d) s m₁ rest entries m₂ ∧
        List.Forall₂ (fun entry p => entry.asPair? = some (p.x, p.y)) data.tail points.toList ∧
        let l := Layout.ofData points
        l.Bounds points ∧
        Shows v "discrete" l entries (marks.flatMap fun mark : Expr × Expr => [mark.1, mark.2]) ∧
        List.Forall₂ (fun p mark => mark.1.IsMark (l.place p) ∧
          mark.2.IsStroke (l.place p) (l.place ⟨p.x, l.stemBase⟩)) points.toList marks ∧
        v.tail.length =
          8 + l.axisCount + 2 * data.tail.length + (Options.captionKeys entries).length) ∧
    (e.form = .special .continuousPlot args →
      ∃ procExpr boundsExpr rest proc m₁ bounds m₂ a b entries m₃ samples m₄ strokes,
        args = procExpr :: boundsExpr :: rest ∧
        (Level.under c d).evalProcedure .continuousPlot procExpr s m = .ok proc m₁ ∧
        evalAt c (d + 1) boundsExpr s m₁ = .ok bounds m₂ ∧ bounds.asPair? = some (a, b) ∧
        OptionEntries (.under c d) s m₂ rest entries m₃ ∧
        Curve.sample bends ((Level.under c d).sampleProcedure proc) a b m₃ = .ok samples m₄ ∧
        let l := Layout.ofCurve a b samples
        l.CurveBounds a b samples ∧
        Shows v "continuous" l entries strokes ∧ strokes.length = samples.size - 1 ∧
        List.Forall₂ (fun q e => e.IsStroke (l.place q.1) (l.place q.2))
          (samples.toList.zip samples.rest) strokes ∧
        (strokes.IsChain fun e f => ∃ p, e.tail[1]? = some p ∧ f.tail[0]? = some p) ∧
        v.tail.length =
          8 + l.axisCount + (samples.size - 1) + (Options.captionKeys entries).length) := by
  constructor
  · intro hForm
    obtain ⟨dataExpr, options, hArgs, h⟩ := exists_of_discretePlot (special_of_evalAt hForm h)
    obtain ⟨data, m₁, o, m₂, points, hData, hList, hOptions, hPoints, rfl⟩ := exists_of_plotData h
    obtain ⟨entries, hEntries, hGiven⟩ := exists_of_evalOptions hOptions
    obtain ⟨marks, hBody, hMarks⟩ := (Layout.ofData points).exists_marks points o.textScale
    have hShows := shows_plot (l := .ofData points) hGiven "discrete"
      ((Layout.ofData points).stems points)
    rw [hBody] at hShows
    refine ⟨dataExpr, _, data, m₁, entries, m₂, points, marks, hArgs, hData, hList, hEntries,
      hPoints, Layout.bounds_ofData points, hShows, hMarks, ?_⟩
    have hCount : (marks.flatMap fun mark : Expr × Expr => [mark.1, mark.2]).length =
        2 * data.tail.length := by
      rw [hPoints.length_eq, hMarks.length_eq, List.length_flatMap]
      simp [Nat.mul_comm]
    rw [← hCount]
    exact hShows.length_tail
  · intro hForm
    obtain ⟨procExpr, boundsExpr, options, hArgs, h⟩ :=
      exists_of_continuousPlot (special_of_evalAt hForm h)
    obtain ⟨proc, m₁, bounds, m₂, a, b, o, m₃, samples, m₄, hProc, hBounds, hPair, _, hOptions,
      hSamples, rfl⟩ := exists_of_plotCurve h
    obtain ⟨entries, hEntries, hGiven⟩ := exists_of_evalOptions hOptions
    obtain ⟨hLength, hStrokes, hChain⟩ :=
      (Layout.ofCurve a b samples).strokes_curve samples o.textScale
    have hShows := shows_plot (l := .ofCurve a b samples) hGiven "continuous"
      ((Layout.ofCurve a b samples).curve samples)
    refine ⟨procExpr, boundsExpr, _, proc, m₁, bounds, m₂, a, b, entries, m₃, samples, m₄, _, hArgs,
      hProc, hBounds, hPair, hEntries, hSamples, Layout.curveBounds_ofCurve a b samples, hShows,
      hLength, hStrokes, hChain, ?_⟩
    rw [← hLength]
    exact hShows.length_tail

/-- Two points on either side of both axes with a title, and a falling line. -/
theorem plot_items_title :
    let entry (x y : Float) := Expr.list [.number x, .number y]
    let data := Expr.list [entry (-1.0) 2.0, entry 3.0 (-4.0)]
    let title := Expr.list [.list [.string "title", .string "Two points"]]
    let negation := Expr.leaf (.procedure .sub)
    let m : Machine := { store := .empty }
    (∃ v m', evalAt (.exact 1) 0 (.special .discretePlot [data, title]) 0 m = .ok v m' ∧
      v.isRenderable = true ∧ v.tail.length = 15) ∧
    ∃ v m', evalAt (.exact 1) 0 (.special .continuousPlot [negation, entry (-1.0) 1.0]) 0 m =
      .ok v m' ∧ v.isRenderable = true := by
  intro entry data title negation m
  constructor
  · obtain ⟨v, m', hPlot⟩ : ∃ v m',
        evalAt (.exact 1) 0 (.special .discretePlot [data, title]) 0 m = .ok v m' :=
      ⟨_, _, rfl⟩
    obtain ⟨_, _, given, m₁, entries, m₂, ⟨first, rest⟩, _, hArgs, hData, _, hEntries, hPoints,
      _, hShows, _, hCount⟩ := (plot_items hPlot).1 (Expr.form_special _ _)
    cases hArgs
    have hGiven : given = data := by
      cases hData
      rfl
    have hTitle : entries = title.tail := by
      rcases hEntries with ⟨hNone, _⟩ | ⟨_, _, hArgs, hOptions, _, rfl⟩
      · cases hNone
      · cases hArgs
        cases hOptions
        rfl
    subst hGiven hTitle
    have hPoint {x y : Float} {p : Point Float} (h : (entry x y).asPair? = some (p.x, p.y)) :
        p = ⟨x, y⟩ := by
      cases h
      rfl
    refine ⟨v, m', hPlot, hShows.renderable, hCount.trans ?_⟩
    cases hPoints with
    | cons hFirst hRest =>
        cases hRest with
        | cons hSecond hRest =>
            cases hRest
            rw [hPoint (p := first) hFirst, hPoint hSecond]
            decide +kernel
  · -- negation never fails, so sampling it does not fail either
    have hTotal : Promise.Meets ⟨fun _ => True, fun _ => False⟩
        (Series.Spans (fun _ => True) (Curve.gridPoint (-1.0) 1.0 0) 1.0)
        (Curve.sample bends ((Level.under (.exact 1) 0).sampleProcedure negation) (-1.0) 1.0) :=
      Curve.sample_meets (fun _ _ _ _ => .ok trivial trivial) (fun _ _ _ _ => trivial) bends
        trivial fun _ _ => trivial
    obtain ⟨samples, m₁, hSamples⟩ := hTotal.exists_ok (fun _ => id) (s := m) trivial
    obtain ⟨v, m', hPlot⟩ : ∃ v m', evalAt (.exact 1) 0
        (.special .continuousPlot [negation, entry (-1.0) 1.0]) 0 m = .ok v m' := by
      have hProc : (Level.under (.exact 1) 0).evalProcedure .continuousPlot negation 0 m =
          .ok negation m := rfl
      have hEntry : (Level.under (.exact 1) 0).eval (entry (-1.0) 1.0) 0 m =
          .ok (entry (-1.0) 1.0) m := rfl
      have hBounds : EvalM.ofExcept (curveBounds (entry (-1.0) 1.0)) m = .ok (-1.0, 1.0) m := by
        rw [curveBounds_eq_ok_iff.mpr ⟨rfl, show (-1.0 : Float) < 1.0 by decide +kernel⟩]
        rfl
      have hOptions : (Level.under (.exact 1) 0).evalOptions none 0 m = .ok {} m := rfl
      rw [evalAt_eq_step, if_pos (by decide), Level.step, Expr.form_special]
      exact ⟨_, _, (EvalM.bind_of_ok hProc).trans <| (EvalM.bind_of_ok hEntry).trans <|
        (EvalM.bind_of_ok hBounds).trans <| (EvalM.bind_of_ok hOptions).trans <|
        (EvalM.bind_of_ok hSamples).trans rfl⟩
    obtain ⟨_, _, _, _, _, _, _, _, _, _, _, _, _, _, _, _, _, _, _, _, _, hShows, _⟩ :=
      (plot_items hPlot).2 (Expr.form_special _ _)
    exact ⟨v, m', hPlot, hShows.renderable⟩

end PlotLang
