import Mathlib.Algebra.Order.Field.Rat
import Mathlib.Tactic.FieldSimp
import Mathlib.Tactic.Linarith
import PlotLang.Plot.Layout
import PlotLang.Proofs.Plot.Extent
import PlotLang.Proofs.Plot.Sampling

/-! The box of a plot, over exact fractions. The bounds of a layout are tight:
they hold all points, and each of them is reached by a point. Everything that is
drawn but the texts follows from that, for data points and for curves alike. -/
namespace PlotLang.Plot

/-! Scaling of one direction. -/

section Scale
variable {lower upper : ℚ}

/-- A range of nothing counts as one, so there is always something to divide by. -/
theorem orOne_pos (h : lower ≤ upper) : 0 < orOne (upper - lower) := by
  unfold orOne
  split
  · norm_num
  · next hSpan =>
      have hNonzero : upper - lower ≠ 0 := by simpa using hSpan
      exact lt_of_le_of_ne (sub_nonneg.mpr h) hNonzero.symm

/-- Scaling does not turn a direction round. -/
theorem scale_pos (h : lower ≤ upper) : 0 < ((20 : Nat) : ℚ) / orOne (upper - lower) :=
  div_pos (by norm_num) (orOne_pos h)

/-- Scaled bounds are twenty apart, unless they coincide. -/
theorem scaled_span (lower upper : ℚ) :
    upper * (((20 : Nat) : ℚ) / orOne (upper - lower)) -
      lower * (((20 : Nat) : ℚ) / orOne (upper - lower)) = if lower = upper then 0 else 20 := by
  rw [← sub_mul]
  split
  · next hSame => rw [hSame, sub_self, zero_mul]
  · next hDiffer =>
      have hSpan : upper - lower ≠ 0 := sub_ne_zero.mpr (Ne.symm hDiffer)
      have hScale : orOne (upper - lower) = upper - lower := by simp [orOne, hSpan]
      rw [hScale]
      field_simp
      norm_num

end Scale

namespace Layout

/-- The bounds of a layout are the extremes of its points. -/
structure Tight (l : Layout ℚ) (points : Series ℚ) : Prop where
  xmin : IsLeast {x | x ∈ points.toList.map Point.x} l.xmin
  xmax : IsGreatest {x | x ∈ points.toList.map Point.x} l.xmax
  ymin : IsLeast {y | y ∈ points.toList.map Point.y} l.ymin
  ymax : IsGreatest {y | y ∈ points.toList.map Point.y} l.ymax

/-- A point within the bounds of a layout, before scaling. -/
def Covers (l : Layout ℚ) (p : Point ℚ) : Prop :=
  (l.xmin ≤ p.x ∧ p.x ≤ l.xmax) ∧ l.ymin ≤ p.y ∧ p.y ≤ l.ymax

/-- A point within the box of a layout. -/
def Encloses (l : Layout ℚ) (p : Point ℚ) : Prop :=
  (l.left ≤ p.x ∧ p.x ≤ l.right) ∧ l.bottom ≤ p.y ∧ p.y ≤ l.top

/-- An item that is drawn within the box of a layout. Texts stand around it. -/
def Holds (l : Layout ℚ) : Item ℚ → Prop
  | .dot p => l.Encloses p
  | .segment start stop => l.Encloses start ∧ l.Encloses stop
  | .label _ _ _ => True

variable {l : Layout ℚ} {points : Series ℚ}

section Tight
variable (hTight : l.Tight points)
include hTight

/-- Every point lies within the bounds. -/
theorem Tight.covers {p : Point ℚ} (hp : p ∈ points.toList) : l.Covers p :=
  ⟨⟨hTight.xmin.2 (List.mem_map_of_mem hp), hTight.xmax.2 (List.mem_map_of_mem hp)⟩,
    hTight.ymin.2 (List.mem_map_of_mem hp), hTight.ymax.2 (List.mem_map_of_mem hp)⟩

theorem Tight.xmin_le_xmax : l.xmin ≤ l.xmax := hTight.xmax.2 hTight.xmin.1

theorem Tight.ymin_le_ymax : l.ymin ≤ l.ymax := hTight.ymax.2 hTight.ymin.1

/-- Scaling keeps the order, so it takes the bounds to the box. -/
theorem Tight.encloses_place {p : Point ℚ} (hp : l.Covers p) : l.Encloses (l.place p) := by
  have hx : 0 ≤ l.sx := (scale_pos hTight.xmin_le_xmax).le
  have hy : 0 ≤ l.sy := (scale_pos hTight.ymin_le_ymax).le
  obtain ⟨⟨hLeft, hRight⟩, hBottom, hTop⟩ := hp
  exact ⟨⟨mul_le_mul_of_nonneg_right hLeft hx, mul_le_mul_of_nonneg_right hRight hx⟩,
    mul_le_mul_of_nonneg_right hBottom hy, mul_le_mul_of_nonneg_right hTop hy⟩

/-- A line between places within the bounds lies within the box. -/
theorem Tight.holds_segment {p q : Point ℚ} (hp : l.Covers p) (hq : l.Covers q) :
    l.Holds (.segment (l.place p) (l.place q)) :=
  ⟨hTight.encloses_place hp, hTight.encloses_place hq⟩

/-! The frame. Its corners are the bounds in scaled coordinates. -/

omit hTight in
/-- The corners of the box are the corners of the bounds, scaled. -/
theorem edges_eq (l : Layout ℚ) :
    l.edges =
      [.segment (l.place ⟨l.xmin, l.ymax⟩) (l.place ⟨l.xmax, l.ymax⟩),
        .segment (l.place ⟨l.xmin, l.ymin⟩) (l.place ⟨l.xmax, l.ymin⟩),
        .segment (l.place ⟨l.xmin, l.ymin⟩) (l.place ⟨l.xmin, l.ymax⟩),
        .segment (l.place ⟨l.xmax, l.ymin⟩) (l.place ⟨l.xmax, l.ymax⟩)] :=
  rfl

/-- The sides of the box are part of it. -/
theorem Tight.holds_edges : ∀ item ∈ l.edges, l.Holds item := by
  have hx := hTight.xmin_le_xmax
  have hy := hTight.ymin_le_ymax
  have hTopLeft : l.Covers ⟨l.xmin, l.ymax⟩ := ⟨⟨le_rfl, hx⟩, hy, le_rfl⟩
  have hTopRight : l.Covers ⟨l.xmax, l.ymax⟩ := ⟨⟨hx, le_rfl⟩, hy, le_rfl⟩
  have hBottomLeft : l.Covers ⟨l.xmin, l.ymin⟩ := ⟨⟨le_rfl, hx⟩, le_rfl, hy⟩
  have hBottomRight : l.Covers ⟨l.xmax, l.ymin⟩ := ⟨⟨hx, le_rfl⟩, le_rfl, hy⟩
  rw [edges_eq]
  simp only [List.mem_cons, List.not_mem_nil, or_false]
  rintro item (rfl | rfl | rfl | rfl)
  · exact hTight.holds_segment hTopLeft hTopRight
  · exact hTight.holds_segment hBottomLeft hBottomRight
  · exact hTight.holds_segment hBottomLeft hTopLeft
  · exact hTight.holds_segment hBottomRight hTopRight

/-- An axis is drawn only where it crosses the box. -/
theorem Tight.holds_axes : ∀ item ∈ l.axes, l.Holds item := by
  have hx := hTight.xmin_le_xmax
  have hy := hTight.ymin_le_ymax
  -- the axes go through zero, which scaling leaves where it is
  have hVertical (y : ℚ) : (⟨((0 : Nat) : ℚ), y * l.sy⟩ : Point ℚ) = l.place ⟨(0 : Nat), y⟩ := by
    simp [place]
  have hHorizontal (x : ℚ) : (⟨x * l.sx, ((0 : Nat) : ℚ)⟩ : Point ℚ) = l.place ⟨x, (0 : Nat)⟩ := by
    simp [place]
  intro item hItem
  rcases List.mem_append.mp hItem with hItem | hItem
  · split at hItem
    · next hZero =>
        rw [List.mem_singleton.mp hItem, bottom, top, hVertical, hVertical]
        exact hTight.holds_segment ⟨hZero, le_rfl, hy⟩ ⟨hZero, hy, le_rfl⟩
    · cases hItem
  · split at hItem
    · next hZero =>
        rw [List.mem_singleton.mp hItem, left, right, hHorizontal, hHorizontal]
        exact hTight.holds_segment ⟨⟨le_rfl, hx⟩, hZero⟩ ⟨⟨hx, le_rfl⟩, hZero⟩
    · cases hItem

theorem Tight.holds_frame : ∀ item ∈ l.frame, l.Holds item := by
  intro item hItem
  rcases List.mem_append.mp hItem with hEdge | hAxis
  · exact hTight.holds_edges item hEdge
  · exact hTight.holds_axes item hAxis

end Tight

/-- Texts stand around the box, so nothing is asked of them. -/
theorem holds_labels (l : Layout ℚ) (tick : ℚ → String) (o : Options) :
    ∀ item ∈ l.labels tick o, l.Holds item := by
  intro item hItem
  simp only [labels, tickLabels, titles, List.mem_append, List.mem_cons, List.not_mem_nil,
    Option.mem_toList, Option.map_eq_some_iff] at hItem
  obtain (rfl | rfl | rfl | rfl | h) | ((⟨_, _, rfl⟩ | ⟨_, _, rfl⟩) | ⟨_, _, rfl⟩) := hItem
  all_goals first | exact trivial | exact h.elim

/-- What a plot of points looks like: a box of twenty units in each direction in
which the points differ, with everything drawn in it and points on all edges. -/
structure Frames (l : Layout ℚ) (points : Series ℚ) (items : List (Item ℚ)) : Prop
    extends l.Tight points where
  box : [.segment ⟨l.left, l.top⟩ ⟨l.right, l.top⟩,
    .segment ⟨l.left, l.bottom⟩ ⟨l.right, l.bottom⟩,
    .segment ⟨l.left, l.bottom⟩ ⟨l.left, l.top⟩,
    .segment ⟨l.right, l.bottom⟩ ⟨l.right, l.top⟩] <+: items
  width : l.right - l.left =
    if ∀ p ∈ points.toList, ∀ q ∈ points.toList, p.x = q.x then 0 else 20
  height : l.top - l.bottom =
    if ∀ p ∈ points.toList, ∀ q ∈ points.toList, p.y = q.y then 0 else 20
  inside : ∀ item ∈ items, l.Holds item
  onLeft : ∃ p ∈ points.toList, (l.place p).x = l.left
  onRight : ∃ p ∈ points.toList, (l.place p).x = l.right
  onBottom : ∃ p ∈ points.toList, (l.place p).y = l.bottom
  onTop : ∃ p ∈ points.toList, (l.place p).y = l.top

/-- The extremes of a coordinate coincide exactly if it is the same everywhere. -/
theorem extremes_eq_iff {points : List (Point ℚ)} {coordinate : Point ℚ → ℚ} {lower upper : ℚ}
    (hLeast : IsLeast {x | x ∈ points.map coordinate} lower)
    (hGreatest : IsGreatest {x | x ∈ points.map coordinate} upper) :
    lower = upper ↔ ∀ p ∈ points, ∀ q ∈ points, coordinate p = coordinate q := by
  constructor
  · rintro rfl p hp q hq
    have hSame (r : Point ℚ) (hr : r ∈ points) : coordinate r = lower :=
      le_antisymm (hGreatest.2 (List.mem_map_of_mem hr)) (hLeast.2 (List.mem_map_of_mem hr))
    rw [hSame p hp, hSame q hq]
  · intro hSame
    obtain ⟨p, hp, rfl⟩ := List.mem_map.mp hLeast.1
    obtain ⟨q, hq, rfl⟩ := List.mem_map.mp hGreatest.1
    exact hSame p hp q hq

/-- Tight bounds give the box, whatever is drawn behind the frame. -/
theorem Tight.frames (hTight : l.Tight points) {drawn : List (Item ℚ)}
    (hDrawn : ∀ item ∈ drawn, l.Holds item) (tick : ℚ → String) (o : Options) :
    l.Frames points (l.frame ++ drawn ++ l.labels tick o) where
  toTight := hTight
  box := by
    rw [frame, List.append_assoc, List.append_assoc]
    exact List.prefix_append l.edges _
  width := by
    simp only [← extremes_eq_iff hTight.xmin hTight.xmax]
    exact scaled_span l.xmin l.xmax
  height := by
    simp only [← extremes_eq_iff hTight.ymin hTight.ymax]
    exact scaled_span l.ymin l.ymax
  inside := by
    intro item hItem
    rcases List.mem_append.mp hItem with hItem | hLabel
    · rcases List.mem_append.mp hItem with hFrame | hItem
      · exact hTight.holds_frame item hFrame
      · exact hDrawn item hItem
    · exact l.holds_labels tick o item hLabel
  onLeft := by
    obtain ⟨p, hp, hx⟩ := List.mem_map.mp hTight.xmin.1
    exact ⟨p, hp, congrArg (· * l.sx) hx⟩
  onRight := by
    obtain ⟨p, hp, hx⟩ := List.mem_map.mp hTight.xmax.1
    exact ⟨p, hp, congrArg (· * l.sx) hx⟩
  onBottom := by
    obtain ⟨p, hp, hy⟩ := List.mem_map.mp hTight.ymin.1
    exact ⟨p, hp, congrArg (· * l.sy) hy⟩
  onTop := by
    obtain ⟨p, hp, hy⟩ := List.mem_map.mp hTight.ymax.1
    exact ⟨p, hp, congrArg (· * l.sy) hy⟩

/-! Data points. -/

/-- The bounds of data points are their extremes by construction. -/
theorem tight_ofData (data : Series ℚ) : (ofData data).Tight data where
  xmin := firstLeast_isLeast data.first.x (data.rest.map Point.x)
  xmax := firstGreatest_isGreatest data.first.x (data.rest.map Point.x)
  ymin := firstLeast_isLeast data.first.y (data.rest.map Point.y)
  ymax := firstGreatest_isGreatest data.first.y (data.rest.map Point.y)

/-- Stems end at zero, or at the bound nearest to it. -/
theorem stemBase_eq (h : l.ymin ≤ l.ymax) :
    l.stemBase = if 0 < l.ymin then l.ymin else if l.ymax < 0 then l.ymax else 0 := by
  simp only [stemBase, firstLeast, firstGreatest, List.foldl_cons, List.foldl_nil, Nat.cast_zero]
  split
  · rw [if_neg (not_lt.mpr h)]
  · rfl

/-- Stems end between the bounds, at zero or at the bound nearest to it. -/
theorem Tight.covers_stemBase (hTight : l.Tight points) {p : Point ℚ} (hp : p ∈ points.toList) :
    l.Covers ⟨p.x, l.stemBase⟩ := by
  have hBounds := hTight.ymin_le_ymax
  refine ⟨(hTight.covers hp).1, ?_⟩
  simp only [stemBase_eq hBounds]
  split
  · exact ⟨le_rfl, hBounds⟩
  · next hLow =>
      split
      · exact ⟨hBounds, le_rfl⟩
      · next hHigh => exact ⟨not_lt.mp hLow, not_lt.mp hHigh⟩

/-- A stem goes from its point to the end of stems straight above or below, and
both lie in the box. -/
theorem Tight.holds_stems (hTight : l.Tight points) : ∀ item ∈ l.stems points, l.Holds item := by
  intro item hItem
  obtain ⟨p, hp, hItem⟩ := List.mem_flatMap.mp hItem
  have hPoint := hTight.covers hp
  rcases List.mem_cons.mp hItem with rfl | hItem
  · exact hTight.encloses_place hPoint
  · rw [List.mem_singleton.mp hItem]
    exact hTight.holds_segment hPoint (hTight.covers_stemBase hp)

/-! Curves. -/

/-- The bounds of a curve are tight because its samples reach from end to end. -/
theorem tight_ofCurve {a b : ℚ} {samples : Series ℚ}
    (hSpans : samples.Spans (fun x => a ≤ x ∧ x ≤ b) a b) : (ofCurve a b samples).Tight samples := by
  have hLast : samples.last ∈ samples.toList := by
    unfold Series.last
    cases hRest : samples.rest.getLast? with
    | none => exact List.mem_cons_self
    | some p => exact List.mem_cons_of_mem _ (List.mem_of_getLast? hRest)
  have hPlaces : ∀ x ∈ samples.toList.map Point.x, a ≤ x ∧ x ≤ b := by
    intro x hx
    obtain ⟨p, hp, rfl⟩ := List.mem_map.mp hx
    exact hSpans.places p hp
  have hStart : a ∈ samples.toList.map Point.x :=
    List.mem_map.mpr ⟨samples.first, List.mem_cons_self, hSpans.first⟩
  have hStop : b ∈ samples.toList.map Point.x := List.mem_map.mpr ⟨samples.last, hLast, hSpans.last⟩
  constructor
  · exact ⟨hStart, fun x hx => (hPlaces x hx).1⟩
  · exact ⟨hStop, fun x hx => (hPlaces x hx).2⟩
  · exact Extent.least_isLeast samples.first.y (samples.rest.map Point.y)
  · exact Extent.greatest_isGreatest samples.first.y (samples.rest.map Point.y)

/-- Both ends of a segment are samples. -/
theorem Tight.holds_curve (hTight : l.Tight points) : ∀ item ∈ l.curve points, l.Holds item := by
  intro item hItem
  obtain ⟨⟨p, q⟩, hSegment, rfl⟩ := List.mem_map.mp hItem
  obtain ⟨hp, hq⟩ := List.of_mem_zip hSegment
  exact hTight.holds_segment (hTight.covers hp) (hTight.covers (List.mem_cons_of_mem _ hq))

/-- A curve begins at its first sample. -/
theorem exists_head?_curve (l : Layout ℚ) {samples : Series ℚ} (h : samples.rest ≠ []) :
    ∃ q, (l.curve samples).head? = some (.segment (l.place samples.first) (l.place q)) := by
  obtain ⟨first, rest⟩ := samples
  cases rest with
  | nil => exact absurd rfl h
  | cons q rest => exact ⟨q, rfl⟩

/-- A curve ends at its last sample. -/
theorem exists_getLast?_curve (l : Layout ℚ) {samples : Series ℚ} (h : samples.rest ≠ []) :
    ∃ p, (l.curve samples).getLast? = some (.segment (l.place p) (l.place samples.last)) := by
  obtain ⟨q, hq⟩ : ∃ q, samples.rest.getLast? = some q :=
    ⟨_, List.getLast?_eq_some_getLast h⟩
  have hStop : samples.segments.getLast?.map Prod.snd = some q := by
    rw [← List.getLast?_map, samples.map_snd_segments, hq]
  obtain ⟨⟨p, r⟩, hSegment, rfl⟩ := Option.map_eq_some_iff.mp hStop
  refine ⟨p, ?_⟩
  rw [curve, List.getLast?_map, hSegment, Series.last, hq]
  rfl

end Layout

/-! The grid of a curve, and the middles of segments, lie between its bounds. -/

namespace Curve
variable {a b : ℚ}

/-- Between proper bounds the step of the grid is not zero, so the other way to
place points is not taken. -/
theorem gridPoint_eq (hBounds : a < b) (i : Nat) : gridPoint a b i = i * ((b - a) / 20) + a := by
  have hStep : (b - a) / 20 ≠ 0 := div_ne_zero (sub_ne_zero.mpr hBounds.ne') (by norm_num)
  simp only [gridPoint, segments, Nat.cast_ofNat, Nat.cast_zero, beq_iff_eq, hStep, if_false]

theorem gridPoint_zero (hBounds : a < b) : gridPoint a b 0 = a := by
  rw [gridPoint_eq hBounds, Nat.cast_zero, zero_mul, zero_add]

/-- The grid stays within the bounds. Its inner points are less than twenty steps
from the start, and the last one is the end itself. -/
theorem gridRest_between (hBounds : a < b) : ∀ x ∈ gridRest a b, a ≤ x ∧ x ≤ b := by
  intro x hx
  rcases List.mem_append.mp hx with hInner | hLast
  · obtain ⟨i, hi, rfl⟩ := List.mem_map.mp hInner
    have hCount : i ≤ 20 := by
      have hRange := (List.mem_range'_1.mp hi).2
      simp only [segments] at hRange
      omega
    have hIndex : (i : ℚ) ≤ 20 := by exact_mod_cast hCount
    have hStep : 0 ≤ (b - a) / 20 := by linarith
    have hLower : 0 ≤ (i : ℚ) * ((b - a) / 20) := mul_nonneg i.cast_nonneg hStep
    have hUpper : (i : ℚ) * ((b - a) / 20) ≤ 20 * ((b - a) / 20) :=
      mul_le_mul_of_nonneg_right hIndex hStep
    rw [gridPoint_eq hBounds]
    constructor <;> linarith
  · rw [List.mem_singleton.mp hLast]
    exact ⟨hBounds.le, le_rfl⟩

/-- The middle of a segment lies between its ends, so halving does not leave the
bounds. -/
theorem middle_between (x y : ℚ) (hx : a ≤ x ∧ x ≤ b) (hy : a ≤ y ∧ y ≤ b) :
    a ≤ (x + y) / (2 : Nat) ∧ (x + y) / (2 : Nat) ≤ b := by
  rw [Nat.cast_ofNat]
  constructor <;> linarith [hx.1, hx.2, hy.1, hy.2]

/-- A curve is sampled from end to end, unless its function fails. -/
theorem sample_spans {ε σ : Type} (hBounds : a < b) (bends : Series ℚ → List Bool)
    (f : ℚ → EStateM ε σ ℚ) (s : σ) :
    (∃ e s', sample bends f a b s = .error e s' ∧
      ∃ x, (a ≤ x ∧ x ≤ b) ∧ ∃ s₁ s₂, f x s₁ = .error e s₂) ∨
    ∃ samples s', sample bends f a b s = .ok samples s' ∧
      samples.Spans (fun x => a ≤ x ∧ x ≤ b) a b := by
  let P : Promise ε σ :=
    { keeps := fun _ => True
      raises := fun e => ∃ x, (a ≤ x ∧ x ≤ b) ∧ ∃ s₁ s₂, f x s₁ = .error e s₂ }
  have hf (x : ℚ) (hx : a ≤ x ∧ x ≤ b) : P.Meets (fun _ => True) (f x) := by
    intro s _
    cases hCall : f x s with
    | ok y s' => exact .ok trivial trivial
    | error e s' => exact .error ⟨x, hx, s, s', hCall⟩
  have hStart : a ≤ gridPoint a b 0 ∧ gridPoint a b 0 ≤ b := by
    rw [gridPoint_zero hBounds]
    exact ⟨le_rfl, hBounds.le⟩
  have hSample := sample_meets hf middle_between bends hStart (gridRest_between hBounds) s trivial
  rw [gridPoint_zero hBounds] at hSample
  cases hResult : sample bends f a b s with
  | ok samples s' =>
      rw [hResult] at hSample
      cases hSample with
      | ok _ hSpans => exact .inr ⟨samples, s', rfl, hSpans⟩
  | error e s' =>
      rw [hResult] at hSample
      cases hSample with
      | error hRaises => exact .inl ⟨e, s', rfl, hRaises⟩

end Curve

/-- Plots stay inside their box. For data points, every stem is upright and ends
at zero or at the edge nearest to it. For a curve, either its function fails
between the bounds, or the segments go from the left edge to the right one. -/
theorem items_within_box :
    (∀ (tick : ℚ → String) (o : Options) (data : Series ℚ),
      let l := Layout.ofData data
      let items := discreteItems tick o data
      l.Frames data items ∧
      ∃ height, items = l.frame ++ (data.toList.flatMap fun p =>
          [.dot (l.place p), .segment (l.place p) ⟨(l.place p).x, height⟩]) ++ l.labels tick o ∧
        (l.ymin ≤ 0 → 0 ≤ l.ymax → height = 0) ∧ (0 < l.ymin → height = l.bottom) ∧
        (l.ymax < 0 → height = l.top)) ∧
    ∀ {ε σ : Type} (tick : ℚ → String) (o : Options) (a b : ℚ), a < b →
      ∀ (bends : Series ℚ → List Bool) (f : ℚ → EStateM ε σ ℚ) (s : σ),
        (∃ e s', Curve.sample bends f a b s = .error e s' ∧
          ∃ x, (a ≤ x ∧ x ≤ b) ∧ ∃ s₁ s₂, f x s₁ = .error e s₂) ∨
        ∃ samples s', Curve.sample bends f a b s = .ok samples s' ∧
          let l := Layout.ofCurve a b samples
          let items := continuousItems tick o a b samples
          l.Frames samples items ∧ items = l.frame ++ l.curve samples ++ l.labels tick o ∧
          (∃ p q, (l.curve samples).head? = some (.segment p q) ∧ p.x = l.left) ∧
          ∃ p q, (l.curve samples).getLast? = some (.segment p q) ∧ q.x = l.right := by
  constructor
  · intro tick o data l items
    have hTight : l.Tight data := Layout.tight_ofData data
    have hBase := Layout.stemBase_eq hTight.ymin_le_ymax
    refine ⟨hTight.frames hTight.holds_stems tick o, l.stemBase * l.sy, rfl, ?_, ?_, ?_⟩
    · intro hLow hHigh
      rw [hBase, if_neg (not_lt.mpr hLow), if_neg (not_lt.mpr hHigh), zero_mul]
    · intro hLow
      rw [hBase, if_pos hLow]
      rfl
    · intro hHigh
      have hLow : ¬0 < l.ymin := not_lt.mpr (hTight.ymin_le_ymax.trans hHigh.le)
      rw [hBase, if_neg hLow, if_pos hHigh]
      rfl
  · intro ε σ tick o a b hBounds bends f s
    refine (Curve.sample_spans hBounds bends f s).imp_right ?_
    rintro ⟨samples, s', hSample, hSpans⟩
    refine ⟨samples, s', hSample, ?_⟩
    intro l items
    have hTight : l.Tight samples := Layout.tight_ofCurve hSpans
    have hRest : samples.rest ≠ [] := by
      intro hEmpty
      have hLast : samples.last = samples.first := by simp [Series.last, hEmpty]
      exact hBounds.ne (hSpans.first.symm.trans (hLast ▸ hSpans.last))
    obtain ⟨q, hHead⟩ := l.exists_head?_curve hRest
    obtain ⟨p, hLast⟩ := l.exists_getLast?_curve hRest
    refine ⟨hTight.frames hTight.holds_curve tick o, rfl, ⟨_, _, hHead, ?_⟩, _, _, hLast, ?_⟩
    · exact congrArg (· * l.sx) hSpans.first
    · exact congrArg (· * l.sx) hSpans.last

/-- Two points on an upright line below zero, and a parabola whose first inner
vertex counts as bent in every pass. -/
theorem items_within_box_parabola :
    let data : Series ℚ := { first := ⟨2, -3⟩, rest := [⟨2, -5⟩] }
    let l := Layout.ofData data
    let f : ℚ → EStateM Unit Unit ℚ := fun x => pure (x * x)
    (l.right - l.left = 0 ∧ l.top - l.bottom = 20) ∧ (-1 : ℚ) < 2 ∧
      ∃ samples s', Curve.sample (fun _ => [true]) f (-1) 2 () = .ok samples s' ∧
        (Layout.ofCurve (-1) 2 samples).Frames samples
          (continuousItems (fun _ => "") {} (-1) 2 samples) := by
  intro data l f
  obtain ⟨hDiscrete, hContinuous⟩ := items_within_box
  have hBounds : (-1 : ℚ) < 2 := by norm_num
  have hTotal : ¬∃ e s', Curve.sample (fun _ => [true]) f (-1) 2 () = .error e s' ∧
      ∃ x, ((-1 : ℚ) ≤ x ∧ x ≤ 2) ∧ ∃ s₁ s₂, f x s₁ = .error e s₂ := by
    rintro ⟨e, _, _, x, _, s₁, s₂, hFails⟩
    cases hFails
  have hFrames := (hDiscrete (fun _ => "") {} data).1
  obtain ⟨samples, s', hSample, hCurve, _⟩ :=
    (hContinuous (fun _ => "") {} (-1) 2 hBounds (fun _ => [true]) f ()).resolve_left hTotal
  refine ⟨⟨hFrames.width.trans ?_, hFrames.height.trans ?_⟩, hBounds, samples, s', hSample, hCurve⟩
  · exact if_pos (by decide)
  · exact if_neg (by decide)

end PlotLang.Plot
