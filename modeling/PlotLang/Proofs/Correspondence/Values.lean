import PlotLang.Proofs.Builtin
import PlotLang.Proofs.Correspondence.Basic
import PlotLang.Proofs.Form

/-! The values that evaluation makes are put together in few ways: data, lists,
properties of plot objects, and plots. A property of values that these respect
is respected by every operation on values. -/
namespace PlotLang

/-- Whether the atom is a datum, which takes no children. -/
def Atom.isDatum : Atom → Bool
  | .none | .number _ | .complex _ | .string _ | .procedure _ => true
  | _ => false

/-- Whether a value can be an item of a plot. -/
def Expr.isItem (e : Expr) : Bool := e.isPoint || e.isLine || e.isText

theorem Plot.Item.isItem_toExpr (scale : Float) (item : Item Float) :
    (item.toExpr scale).isItem = true := by
  cases item <;> rfl

/-- A plot object that takes a property is still a plot object, whatever its
shape was: the property that names the shape takes only names of shapes. -/
theorem isPlotObject_of_withProperty {key : String} {value target v : Expr}
    (h : withProperty key value target = .ok v) :
    v = target.setProperty key value ∧ v.isPlotObject = true := by
  unfold withProperty at h
  by_cases hObject : target.isPlotObject = true
  · rw [if_pos hObject] at h
    cases hCheck : checkProperty key value with
    | error cause =>
        rw [hCheck] at h
        cases h
    | ok _ =>
        rw [hCheck] at h
        cases h
        refine ⟨rfl, ?_⟩
        by_cases hKey : key = Expr.objectNameKey
        · subst hKey
          have hShape : value.headString?.isSome = true := by
            cases hText : value.headString? with
            | some text => rfl
            | none => simp [checkProperty, Expr.objectNameKey, hText, Mismatch.unless] at hCheck
          simp [Expr.isPlotObject, Expr.objectName?, hShape]
        · have hPlot : (target.setProperty key value).isPlot = target.isPlot := rfl
          have hName := Expr.property?_setProperty_of_ne target value (Ne.symm hKey)
          simpa [Expr.isPlotObject, Expr.objectName?, hName, hPlot] using hObject
  · rw [if_neg hObject] at h
    cases h

namespace Correspondence
variable {Stage : Type} [Preorder Stage]

/-- What the ways to put values together and to take them apart must respect.
Properties may be assumed to go to plot objects and plots to be made of items. -/
structure Constructive (admits : Stage → Expr → Prop) : Prop where
  mono : ∀ {w w' v}, w ≤ w' → admits w v → admits w' v
  datum : ∀ {w a}, Atom.isDatum a = true → admits w (.leaf a)
  list : ∀ {w vs}, (∀ v ∈ vs, admits w v) → admits w (.list vs)
  element : ∀ {w v c}, admits w v → v.isList = true → c ∈ v.tail → admits w c
  setProperty : ∀ {w e v key}, admits w e → admits w v →
    (e.setProperty key v).isPlotObject = true → admits w (e.setProperty key v)
  property : ∀ {w e key v}, admits w e → e.property? key = some v → admits w v
  plot : ∀ {w name items}, (∀ v ∈ items, admits w v) → (∀ v ∈ items, v.isItem = true) →
    admits w (.plot name items)

namespace Constructive
variable {admits : Stage → Expr → Prop} (hAdmits : Constructive admits) {w : Stage}
include hAdmits

theorem number (x : Float) : admits w (.number x) := hAdmits.datum rfl

theorem string (text : String) : admits w (.string text) := hAdmits.datum rfl

theorem point (x y : Float) : admits w (.point x y) := by
  have hPair : ∀ v ∈ [Expr.number x, Expr.number y], admits w v := by
    simpa using ⟨hAdmits.number x, hAdmits.number y⟩
  exact hAdmits.setProperty (hAdmits.list hPair) (hAdmits.string "point") rfl

theorem line {a c : Expr} (ha : admits w a) (hc : admits w c) : admits w (.line a c) := by
  have hEnds : ∀ v ∈ [a, c], admits w v := by simpa using ⟨ha, hc⟩
  exact hAdmits.setProperty (hAdmits.list hEnds) (hAdmits.string "line") rfl

theorem label (text : String) : admits w (.label text) :=
  hAdmits.setProperty (hAdmits.string text) (hAdmits.string "text") rfl

/-- Values of which plots are made can be built from numbers and texts alone. -/
theorem item (scale : Float) (item : Plot.Item Float) : admits w (item.toExpr scale) := by
  cases item with
  | dot p => exact hAdmits.setProperty (hAdmits.point p.x p.y) (hAdmits.number 0.5) rfl
  | segment a b =>
      have hLine := hAdmits.line (w := w) (hAdmits.point a.x a.y) (hAdmits.point b.x b.y)
      exact hAdmits.setProperty hLine (hAdmits.number 0.0) rfl
  | label text p turned =>
      have hPlaced : admits w ((Expr.label text).setProperty "position" p.toExpr) :=
        hAdmits.setProperty (hAdmits.label text) (hAdmits.point p.x p.y) rfl
      exact hAdmits.setProperty (hAdmits.setProperty hPlaced (hAdmits.number scale) rfl)
        (hAdmits.number (Plot.rotation turned)) rfl

/-- Procedures give numbers, lists of their arguments, or objects made of them. -/
theorem run {b : Builtin} {args : List Expr} {v : Expr} (hArgs : ∀ a ∈ args, admits w a)
    (hv : b.run args = .ok v) : admits w v := by
  have hParts {e : Expr} (he : Builtin.IsPart args e) : admits w e := by
    rcases he with he | ⟨a, ha, hList, he⟩
    · exact hArgs e he
    · exact hAdmits.element (hArgs a ha) hList he
  cases Builtin.run_yields hv with
  | number x => cases x <;> exact hAdmits.datum rfl
  | part hPart => exact hParts hPart
  | list hElements =>
      refine hAdmits.list fun e he => ?_
      rcases hElements e he with hPart | ⟨x, rfl⟩
      · exact hParts hPart
      · exact hAdmits.number x
  | point x y => exact hAdmits.point x y
  | line hStart hStop => exact hAdmits.line (hArgs _ hStart) (hArgs _ hStop)
  | label _ => exact hAdmits.label _

/-- A plot of whatever was laid out. -/
theorem laidOut (name : String) (scale : Float) (items : List (Plot.Item Float)) :
    admits w (.plot name (items.map (Plot.Item.toExpr scale))) := by
  refine hAdmits.plot (fun v hv => ?_) fun v hv => ?_
  · obtain ⟨item, _, rfl⟩ := List.mem_map.mp hv
    exact hAdmits.item scale item
  · obtain ⟨item, _, rfl⟩ := List.mem_map.mp hv
    exact item.isItem_toExpr scale

/-- An accepted property leaves the rest of the target as it was. -/
theorem withProperty {key : String} {value target v : Expr} (hValue : admits w value)
    (hTarget : admits w target) (hv : withProperty key value target = .ok v) : admits w v := by
  obtain ⟨rfl, hObject⟩ := isPlotObject_of_withProperty hv
  exact hAdmits.setProperty hTarget hValue hObject

/-- All values that the language makes are of the listed kinds. -/
theorem valueLaws : ValueLaws admits where
  admits_mono := hAdmits.mono
  admits_none := fun _ => hAdmits.datum rfl
  admits_number := fun _ => hAdmits.number
  admits_list := hAdmits.list
  admits_element := hAdmits.element
  admits_run := hAdmits.run
  admits_withProperty := fun _ _ => hAdmits.withProperty
  admits_property := hAdmits.property
  admits_plot := fun _ name scale items _ => hAdmits.laidOut name scale items

end Constructive

/-- Where the children of what is evaluated may be evaluated too, all parts of
all forms may. -/
theorem FormLaws.of_children {admits : Stage → Expr → Prop} {runs : Stage → Expr → ScopeId → Prop}
    (hMono : ∀ {w w' e s}, w ≤ w' → runs w e s → runs w' e s)
    (hLiteral : ∀ {w e s}, runs w e s → e.form = .literal → admits w e)
    (hChild : ∀ {w e s c}, runs w e s → c ∈ e.tail → runs w c s) : FormLaws admits runs where
  runs_mono := hMono
  runs_literal := hLiteral
  runs_special := by
    intro w e s k args a hRuns hForm _ ha
    obtain ⟨rfl, _⟩ := Expr.of_form_special hForm
    exact hChild hRuns ha
  runs_call := by
    intro w e s f args a hRuns hForm ha
    obtain ⟨rfl, _⟩ := Expr.of_form_call hForm
    exact hChild hRuns ha

end Correspondence
end PlotLang
