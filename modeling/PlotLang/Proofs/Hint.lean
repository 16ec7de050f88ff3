import PlotLang.Proofs.Part
import PlotLang.Proofs.Plot.Options
import PlotLang.Proofs.Reading

/-! Hints for drawing. A property of a plot object has passed the check of its key
when it was written, and nothing else writes properties. So a renderer finds sizes
and thicknesses that are not negative, scales of texts that are not negative or
zero, and points for positions. An undefined number is not negative either: the
check takes it, and the option of a plot for the same scale does not. -/
namespace PlotLang

namespace Expr

def Checked (o : Expr) : Prop :=
  ∀ key value, o.property? key = some value → checkProperty key value = .ok ()

/-- What the properties of a plot object are as hints for a renderer. -/
structure HintsUsable (o : Expr) : Prop where
  extent : ∀ key ∈ ["size", "thickness"], ∀ value, o.property? key = some value →
    ∃ x, value.asNumber? = some x ∧ (0.0 ≤ x ∨ x.isNaN = true)
  textScale : ∀ value, o.property? "text-scale" = some value →
    ∃ x, value.asNumber? = some x ∧ (0.0 < x ∨ x.isNaN = true)
  textRotation : ∀ value, o.property? "text-rotation" = some value →
    ∃ x, value.asNumber? = some x
  position : ∀ value, o.property? "position" = some value → value.isPoint = true

/-- What passed the check of its key is what a renderer can use. -/
theorem Checked.hintsUsable {o : Expr} (h : o.Checked) : o.HintsUsable where
  extent := by
    intro key hKey value hValue
    obtain ⟨x, hNumber, hx⟩ := (checkProperty_extent (by simpa using hKey)).mp (h key value hValue)
    exact ⟨x, hNumber, float_not_neg_iff.mp hx⟩
  textScale := by
    intro value hValue
    obtain ⟨x, hNumber, hx⟩ := checkProperty_textScale.mp (h _ value hValue)
    exact ⟨x, hNumber, float_not_nonpos_iff.mp hx⟩
  textRotation := fun value hValue => checkProperty_textRotation.mp (h _ value hValue)
  position := fun value hValue => checkProperty_position.mp (h _ value hValue)

/-- What has no properties has no hints that could be unusable. -/
theorem checked_of_properties_eq_nil {e : Expr} (h : e.properties = []) : e.Checked := by
  intro key value hValue
  rw [property?, h] at hValue
  cases hValue

/-- A property that is set has been checked, and the other ones were checked before. -/
theorem Checked.setProperty {e v : Expr} {key : String} (he : e.Checked)
    (hv : checkProperty key v = .ok ()) : (e.setProperty key v).Checked := by
  intro key' value hValue
  by_cases hKey : key' = key
  · subst hKey
    rw [property?_setProperty_self] at hValue
    cases hValue
    exact hv
  · rw [property?_setProperty_of_ne _ _ hKey] at hValue
    exact he key' value hValue

/-- Nothing but an accepted write adds a property. -/
theorem checked_objectLaws : ObjectLaws True Checked := by
  have hNamed {e : Expr} {name : String} (he : e.properties = []) (hName : name ∈ shapeNames) :
      (e.setProperty objectNameKey (.string name)).Checked :=
    (checked_of_properties_eq_nil he).setProperty (checkProperty_objectName.mpr ⟨name, rfl, hName⟩)
  exact
    { plain := fun he _ => checked_of_properties_eq_nil he
      point := fun x y => hNamed rfl (by decide)
      line := fun _ _ => hNamed rfl (by decide)
      label := fun text => hNamed rfl (by decide)
      plot := fun _ => checked_of_properties_eq_nil rfl
      written := by
        intro key value target v _ hTarget hv
        obtain ⟨_, hCheck, rfl⟩ := withProperty_eq_ok_iff.mp hv
        exact hTarget.setProperty hCheck }

end Expr

/-! The scale of texts, which is given in two ways. -/

section TextScale
variable {value : Expr} {x : Float} (hNumber : value.asNumber? = some x)
include hNumber

/-- The check of a property takes every scale that is not zero or negative,
undefined ones too. -/
theorem exists_withProperty_textScale_iff {target : Expr} (hTarget : target.isPlotObject = true) :
    (∃ v, withProperty "text-scale" value target = .ok v) ↔ 0.0 < x ∨ x.isNaN = true := by
  rw [← float_not_nonpos_iff]
  simp [withProperty_eq_ok_iff, hTarget, checkProperty_textScale, hNumber]

/-- The option for the same scale takes positive numbers only. -/
theorem exists_addEntry_textScale_iff (o : Plot.Options) :
    (∃ o', o.addEntry (.list [.string "text-scale", value]) = .ok o') ↔ 0.0 < x := by
  have hHead : value.head = .number x := by
    rw [← Expr.headNumber?_eq_some_iff]
    unfold Expr.asNumber? at hNumber
    split at hNumber
    · exact hNumber
    · cases hNumber
  have hEntry : o.addEntry (.list [.string "text-scale", value]) =
      (Plot.Options.scaleOf value).map fun scale => { o with textScale := scale } := rfl
  rw [hEntry]
  constructor
  · rintro ⟨o', h⟩
    obtain ⟨y, hScale, _⟩ := bind_eq_ok h
    obtain ⟨hy, hPositive⟩ := Plot.Options.scaleOf_eq_ok_iff.mp hScale
    cases hHead.symm.trans hy
    exact hPositive
  · intro hPositive
    rw [Plot.Options.scaleOf_eq_ok_iff.mpr ⟨hHead, hPositive⟩]
    exact ⟨_, rfl⟩

end TextScale

namespace Session

/-- In every session, hints are in the range that their keys ask for or undefined.
A scale of texts is accepted as a property if it is positive or undefined and as an
option if it is positive, so the two agree on all numbers but the undefined one. -/
theorem Reached.hints_usable {session : Session} (h : session.Reached) :
    (∀ v, session.Has (fun _ => True) v → ∀ o : Expr, o.Part v → o.HintsUsable) ∧
    ∀ (value target : Expr) (x : Float) (o : Plot.Options), value.asNumber? = some x →
      target.isPlotObject = true →
      let asProperty := ∃ v, withProperty "text-scale" value target = .ok v
      let asOption := ∃ o', o.addEntry (.list [.string "text-scale", value]) = .ok o'
      (asProperty ↔ 0.0 < x ∨ x.isNaN = true) ∧ (asOption ↔ 0.0 < x) ∧
        ((asProperty ↔ asOption) ↔ x.isNaN = false) := by
  constructor
  · intro v hv o ho
    exact (h.everywhere Expr.checked_objectLaws hv o ho).hintsUsable
  · intro value target x o hNumber hTarget asProperty asOption
    have hProperty : asProperty ↔ 0.0 < x ∨ x.isNaN = true :=
      exists_withProperty_textScale_iff hNumber hTarget
    have hOption : asOption ↔ 0.0 < x := exists_addEntry_textScale_iff hNumber o
    refine ⟨hProperty, hOption, ?_⟩
    rw [hProperty, hOption]
    cases hNaN : x.isNaN with
    | false => simp
    | true => simp [float_not_pos_of_isNaN hNaN]

/-- A point whose size was set to a number. -/
theorem hints_usable_size :
    ∃ v, ((Session.new 200).eval "(set-property \"size\" 5 (make-point 1 2))").1 = .ok v ∧
      v.size = 5.0 ∧ v.HintsUsable := by
  have hDerives : Derives "(set-property \"size\" 5 (make-point 1 2))"
      [.list (.word "set-property") [.atom (.string "\"size\""), .atom (.word "5"),
        .list (.word "make-point") [.atom (.word "1"), .atom (.word "2")]]] := by decide +kernel
  obtain ⟨v, hValue, hSize⟩ := exists_of_derives (.new 200) (fun v => v.size = 5.0) hDerives
    (by decide +kernel)
  have hReached : (Session.new 200).Reached := .new 200
  have hHas : (Session.new 200).Has (fun _ => True) v := .inr ⟨_, trivial, hValue⟩
  exact ⟨v, hValue, by simpa using hSize, hReached.hints_usable.1 v hHas v .self⟩

/-- The difference of two infinite numbers is accepted as a size, though it is not
at least zero, and as the scale of a text, though it is not positive and no option
takes it. -/
theorem undefined_hints_accepted :
    (∃ v, ((Session.new 200).eval
        "(set-property \"size\" (- 1e400 1e400) (make-point 0 0))").1 = .ok v ∧
      v.isPoint = true ∧ ¬0.0 ≤ v.size) ∧
    ∃ v, ((Session.new 200).eval
        "(set-property \"text-scale\" (- 1e400 1e400) (make-text \"a\"))").1 = .ok v ∧
      v.isText = true ∧ ¬0.0 < v.textScale ∧ ∀ o : Plot.Options,
        ¬∃ o', o.addEntry (.list [.string "text-scale", .number v.textScale]) = .ok o' := by
  let undefined : Derivation := .list (.word "-") [.atom (.word "1e400"), .atom (.word "1e400")]
  have hSize : Derives "(set-property \"size\" (- 1e400 1e400) (make-point 0 0))"
      [.list (.word "set-property") [.atom (.string "\"size\""), undefined,
        .list (.word "make-point") [.atom (.word "0"), .atom (.word "0")]]] := by decide +kernel
  have hScale : Derives "(set-property \"text-scale\" (- 1e400 1e400) (make-text \"a\"))"
      [.list (.word "set-property") [.atom (.string "\"text-scale\""), undefined,
        .list (.word "make-text") [.atom (.string "\"a\"")]]] := by decide +kernel
  obtain ⟨p, hPoint, hp⟩ := exists_of_derives (.new 200)
    (fun v => v.isPoint && !decide (0.0 ≤ v.size)) hSize (by decide +kernel)
  obtain ⟨t, hText, ht⟩ := exists_of_derives (.new 200)
    (fun v => v.isText && !decide (0.0 < v.textScale)) hScale (by decide +kernel)
  simp only [Bool.and_eq_true, Bool.not_eq_true', decide_eq_false_iff_not] at hp ht
  exact ⟨⟨p, hPoint, hp⟩, t, hText, ht.1, ht.2, fun o h =>
    ht.2 ((exists_addEntry_textScale_iff rfl o).mp h)⟩

end Session
end PlotLang
