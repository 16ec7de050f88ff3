import PlotLang.Proofs.Application
import PlotLang.Proofs.Correspondence.Values
import PlotLang.Proofs.FloatOrder

/-! Properties are the fields of a plot object. A write is accepted or refused by
its key and its value alone, once the target is a plot object, and it stays one.
So accepted writes obey the laws of a map from keys to values, and a property that
a renderer uses has a value that the renderer reads. The two forms do nothing
besides: they change the machine only by evaluating their arguments. -/
namespace PlotLang

namespace Expr

/-- Expressions that differ at most in the order of their properties. -/
structure SameFields (a b : Expr) : Prop where
  head : a.head = b.head
  tail : a.tail = b.tail
  properties : a.properties.Perm b.properties
  property? : ∀ key, a.property? key = b.property? key

variable (e : Expr)

/-- A second write to the same key leaves nothing of the first. -/
theorem setProperty_setProperty_self (key : String) (v w : Expr) :
    (e.setProperty key v).setProperty key w = e.setProperty key w := by
  simp [setProperty, Table.put_put_self]

/-- Two keys are written in either order, which shows in the order of new keys
only. -/
theorem sameFields_setProperty_comm {key key' : String} (h : key' ≠ key) (v v' : Expr) :
    ((e.setProperty key v).setProperty key' v').SameFields
      ((e.setProperty key' v').setProperty key v) where
  head := rfl
  tail := rfl
  properties := Table.put_put_perm h v v' e.properties
  property? := by
    intro other
    by_cases hFirst : other = key
    · subst hFirst
      rw [property?_setProperty_of_ne _ _ (Ne.symm h), property?_setProperty_self,
        property?_setProperty_self]
    · by_cases hSecond : other = key'
      · subst hSecond
        rw [property?_setProperty_self, property?_setProperty_of_ne _ _ h,
          property?_setProperty_self]
      · rw [property?_setProperty_of_ne _ _ hSecond, property?_setProperty_of_ne _ _ hFirst,
          property?_setProperty_of_ne _ _ hFirst, property?_setProperty_of_ne _ _ hSecond]

end Expr

/-! Which writes are accepted. There is one lemma for each key that a renderer
reads; other keys take any value. -/

theorem Mismatch.unless_eq_ok_iff {m : Mismatch} {condition : Bool} :
    m.unless condition = .ok () ↔ condition = true := by
  cases condition <;> simp [Mismatch.unless]

section Check
variable {key : String} {value : Expr}

/-- Sizes and thicknesses may be zero, and an undefined number passes the test as
well. -/
theorem checkProperty_extent (hKey : key = "size" ∨ key = "thickness") :
    checkProperty key value = .ok () ↔ ∃ x, value.asNumber? = some x ∧ ¬x < 0.0 := by
  rcases hKey with rfl | rfl <;>
    simp [checkProperty, Mismatch.unless_eq_ok_iff, Option.any_eq_true]

/-- A scale may not be zero; an undefined number passes the test. -/
theorem checkProperty_textScale :
    checkProperty "text-scale" value = .ok () ↔ ∃ x, value.asNumber? = some x ∧ ¬x ≤ 0.0 := by
  simp [checkProperty, Mismatch.unless_eq_ok_iff, Option.any_eq_true]

theorem checkProperty_textRotation :
    checkProperty "text-rotation" value = .ok () ↔ ∃ x, value.asNumber? = some x := by
  simp [checkProperty, Mismatch.unless_eq_ok_iff, Option.isSome_iff_exists]

/-- A position is a point object, not a list of two numbers. -/
theorem checkProperty_position :
    checkProperty "position" value = .ok () ↔ value.isPoint = true := by
  simp [checkProperty, Mismatch.unless_eq_ok_iff]

/-- A name is one of the three shapes, whatever the target looks like. -/
theorem checkProperty_objectName :
    checkProperty Expr.objectNameKey value = .ok () ↔
      ∃ name, value.headString? = some name ∧ name ∈ shapeNames := by
  simp [checkProperty, Mismatch.unless_eq_ok_iff, Expr.objectNameKey, Option.any_eq_true]

end Check

/-- A write is done if the target is a plot object and the value passes the check
of its key. -/
theorem withProperty_eq_ok_iff {key : String} {value target v : Expr} :
    withProperty key value target = .ok v ↔
      target.isPlotObject = true ∧ checkProperty key value = .ok () ∧
        v = target.setProperty key value := by
  unfold withProperty
  by_cases hObject : target.isPlotObject = true
  · rw [if_pos hObject]
    cases hCheck : checkProperty key value with
    | ok _ => simp [hObject, eq_comm]
    | error m => simp
  · rw [if_neg hObject]
    simp [hObject]

/-- A plot object that has taken a property takes and refuses what it took and
refused before. -/
theorem withProperty_congr {key : String} {value target v : Expr}
    (h : withProperty key value target = .ok v) (key' : String) (value' : Expr) :
    (∃ w, withProperty key' value' v = .ok w) ↔ ∃ w, withProperty key' value' target = .ok w := by
  have hTarget := (withProperty_eq_ok_iff.mp h).1
  have hObject := (isPlotObject_of_withProperty h).2
  simp [withProperty_eq_ok_iff, hTarget, hObject]

/-- The number that is read back is the one that was accepted. -/
theorem asNumber?_eq_numberProperty {key : String} {value target v : Expr} {x : Float}
    (h : withProperty key value target = .ok v) (hNumber : value.asNumber? = some x)
    (default : Float) : value.asNumber? = some (v.numberProperty key default) := by
  obtain ⟨_, _, rfl⟩ := withProperty_eq_ok_iff.mp h
  simp [Expr.numberProperty, hNumber]

/-- What a renderer reads of a plot object that has taken a property: the value
that was accepted, and not a default. -/
structure Read (key : String) (value v : Expr) : Prop where
  size : key = "size" → value.asNumber? = some v.size
  thickness : key = "thickness" → value.asNumber? = some v.thickness
  textScale : key = "text-scale" → value.asNumber? = some v.textScale
  textRotation : key = "text-rotation" → value.asNumber? = some v.textRotation
  position : key = "position" → value = v.position

/-- What a write was allowed to store is what the reader of its key accepts. -/
theorem read_of_withProperty {key : String} {value target v : Expr}
    (h : withProperty key value target = .ok v) : Read key value v := by
  obtain ⟨_, hCheck, hv⟩ := withProperty_eq_ok_iff.mp h
  constructor
  · rintro rfl
    obtain ⟨x, hx, _⟩ := (checkProperty_extent (.inl rfl)).mp hCheck
    exact asNumber?_eq_numberProperty h hx _
  · rintro rfl
    obtain ⟨x, hx, _⟩ := (checkProperty_extent (.inr rfl)).mp hCheck
    exact asNumber?_eq_numberProperty h hx _
  · rintro rfl
    obtain ⟨x, hx, _⟩ := checkProperty_textScale.mp hCheck
    exact asNumber?_eq_numberProperty h hx _
  · rintro rfl
    obtain ⟨x, hx⟩ := checkProperty_textRotation.mp hCheck
    exact asNumber?_eq_numberProperty h hx _
  · rintro rfl
    have hPoint := checkProperty_position.mp hCheck
    simp [hv, Expr.position, hPoint]

/-! The two forms, in terms of the values of their arguments. -/

/-- Expressions that have the given values when they are evaluated in turn. -/
def HaveValues (c : Ceiling) (d : Int) (s : ScopeId) (args : List Expr) (m : Machine)
    (values : List Expr) (m' : Machine) : Prop :=
  (args.mapM fun a => evalAt c d a s) m = .ok values m'

/-- A literal or a name, whose evaluation only looks something up. -/
def Expr.IsPlain (e : Expr) : Prop := e.form = .literal ∨ ∃ x, e.form = .variable x

section Forms
variable {c : Ceiling} {d : Int} {s : ScopeId} {m m' : Machine}

theorem haveValues_cons_iff {a v : Expr} {as vs : List Expr} :
    HaveValues c d s (a :: as) m (v :: vs) m' ↔
      ∃ m₁, evalAt c d a s m = .ok v m₁ ∧ HaveValues c d s as m₁ vs m' :=
  EvalM.mapM_cons_eq_ok_iff

theorem machine_eq_of_evalAt_plain {e v : Expr} (he : e.IsPlain)
    (h : evalAt c d e s m = .ok v m') : m' = m := by
  rw [evalAt_eq_step] at h
  split at h
  · unfold Level.step at h
    rcases he with hLiteral | ⟨x, hVariable⟩
    · rw [hLiteral] at h
      cases h
      rfl
    · rw [hVariable] at h
      simp only [EvalM.lookup_apply] at h
      split at h
      · cases h
        rfl
      · cases h
  · cases h

/-- The induction is on the expressions still to be evaluated. -/
theorem HaveValues.machine_eq {args values : List Expr} (hPlain : ∀ a ∈ args, a.IsPlain)
    (h : HaveValues c d s args m values m') : m' = m := by
  induction args generalizing m values with
  | nil =>
      cases h
      rfl
  | cons a args ih =>
      obtain ⟨hFirst, hRest⟩ := List.forall_mem_cons.mp hPlain
      unfold HaveValues at h
      rw [List.mapM_cons] at h
      obtain ⟨v, m₁, hEval, h⟩ := EvalM.exists_of_bind h
      obtain ⟨vs, m₂, hEvals, h⟩ := EvalM.exists_of_bind h
      cases h
      exact (ih hRest hEvals).trans (machine_eq_of_evalAt_plain hFirst hEval)

variable {key : String} {name keyExpr valueExpr targetExpr value target v : Expr}
  (hName : name.asString? = some key)
include hName

/-- The key of a form is a value of text, evaluated as any argument. -/
theorem evalKey_eq_ok (hEval : evalAt c (d + 1) keyExpr s m = .ok name m') :
    (Level.under c d).evalKey keyExpr s m = .ok key m' := by
  refine (EvalM.bind_of_ok hEval).trans ?_
  rw [hName]
  rfl

/-- Nothing but the arguments is evaluated, also if the write is refused. -/
theorem evalAt_setProperty (hDepth : d ≤ c.levels)
    (hArgs : HaveValues c (d + 1) s [keyExpr, valueExpr, targetExpr] m [name, value, target] m') :
    evalAt c d (.special .setProperty [keyExpr, valueExpr, targetExpr]) s m =
      EvalM.ofExcept (withProperty key value target) m' := by
  obtain ⟨m₁, hKey, hArgs⟩ := haveValues_cons_iff.mp hArgs
  obtain ⟨m₂, hValue, hArgs⟩ := haveValues_cons_iff.mp hArgs
  obtain ⟨m₃, hTarget, hArgs⟩ := haveValues_cons_iff.mp hArgs
  cases hArgs
  rw [evalAt_eq_step, if_pos hDepth, Level.step, Expr.form_special]
  refine (EvalM.bind_of_ok (evalKey_eq_ok hName hKey)).trans ?_
  exact (EvalM.bind_of_ok hValue).trans (EvalM.bind_of_ok hTarget)

/-- Reading a property that is not set gives the empty value. -/
theorem evalAt_getProperty (hDepth : d ≤ c.levels)
    (hArgs : HaveValues c (d + 1) s [keyExpr, targetExpr] m [name, target] m') :
    evalAt c d (.special .getProperty [keyExpr, targetExpr]) s m =
      .ok ((target.property? key).getD .none) m' := by
  obtain ⟨m₁, hKey, hArgs⟩ := haveValues_cons_iff.mp hArgs
  obtain ⟨m₂, hTarget, hArgs⟩ := haveValues_cons_iff.mp hArgs
  cases hArgs
  rw [evalAt_eq_step, if_pos hDepth, Level.step, Expr.form_special]
  exact (EvalM.bind_of_ok (evalKey_eq_ok hName hKey)).trans (EvalM.bind_of_ok hTarget)

end Forms

/-- The laws of fields for a target that has taken a value under a key. -/
structure FieldLaws (key : String) (value target v : Expr) : Prop where
  head : v.head = target.head
  tail : v.tail = target.tail
  object : v.isPlotObject = true
  written : v.property? key = some value
  others : ∀ other, other ≠ key → v.property? other = target.property? other
  replaced : ∀ value' w, withProperty key value' target = .ok w → withProperty key value' v = .ok w
  commutes : ∀ other value' w, other ≠ key → withProperty other value' target = .ok w →
    ∃ a b, withProperty other value' v = .ok a ∧ withProperty key value w = .ok b ∧ a.SameFields b
  accepts : ∀ other value', (∃ w, withProperty other value' v = .ok w) ↔
    ∃ w, withProperty other value' target = .ok w
  read : Read key value v

/-- An accepted write obeys the laws of fields. -/
theorem fieldLaws_of_withProperty {key : String} {value target v : Expr}
    (h : withProperty key value target = .ok v) : FieldLaws key value target v := by
  have hAccepts := withProperty_congr h
  have hRead := read_of_withProperty h
  have hObject := (isPlotObject_of_withProperty h).2
  obtain ⟨_, hCheck, rfl⟩ := withProperty_eq_ok_iff.mp h
  refine ⟨rfl, rfl, hObject, target.property?_setProperty_self value key, fun other hOther =>
    target.property?_setProperty_of_ne value hOther, ?_, ?_, hAccepts, hRead⟩
  · intro value' w hw
    obtain ⟨_, hCheck', rfl⟩ := withProperty_eq_ok_iff.mp hw
    exact withProperty_eq_ok_iff.mpr
      ⟨hObject, hCheck', (target.setProperty_setProperty_self key value value').symm⟩
  · intro other value' w hOther hw
    obtain ⟨_, hCheck', rfl⟩ := withProperty_eq_ok_iff.mp hw
    have hObject' := (isPlotObject_of_withProperty hw).2
    exact ⟨_, _, withProperty_eq_ok_iff.mpr ⟨hObject, hCheck', rfl⟩,
      withProperty_eq_ok_iff.mpr ⟨hObject', hCheck, rfl⟩,
      target.sameFields_setProperty_comm hOther value value'⟩

/-- Accepted writes obey the laws of fields, and the forms that write and read
properties are these operations on the values of their arguments. The machine at
the end is the one that the arguments leave. If they are literals and names, it is
the one at the start, so the name of a target still means the target. -/
theorem property_forms_lawful {key : String} {value target v : Expr}
    (h : withProperty key value target = .ok v) :
    FieldLaws key value target v ∧
    ∀ (c : Ceiling) (d : Int) (s : ScopeId) (m m' : Machine),
      (∀ name keyExpr valueExpr targetExpr : Expr, name.asString? = some key →
        (d ≤ c.levels →
          HaveValues c (d + 1) s [keyExpr, valueExpr, targetExpr] m [name, value, target] m' →
          evalAt c d (.special .setProperty [keyExpr, valueExpr, targetExpr]) s m = .ok v m') ∧
        ∀ (otherExpr otherName : Expr) (other : String) (m₁ : Machine),
          otherName.asString? = some other → d + 1 ≤ c.levels →
          evalAt c (d + 1) otherExpr s m = .ok otherName m₁ →
          HaveValues c (d + 1 + 1) s [keyExpr, valueExpr, targetExpr] m₁ [name, value, target] m' →
          evalAt c d (.special .getProperty
              [otherExpr, .special .setProperty [keyExpr, valueExpr, targetExpr]]) s m =
            .ok (if other = key then value else (target.property? other).getD .none) m') ∧
      (∀ (otherExpr otherName targetExpr : Expr) (other : String),
        otherName.asString? = some other → d ≤ c.levels →
        HaveValues c (d + 1) s [otherExpr, targetExpr] m [otherName, target] m' →
        evalAt c d (.special .getProperty [otherExpr, targetExpr]) s m =
          .ok ((target.property? other).getD .none) m') ∧
      ∀ args values : List Expr, (∀ a ∈ args, a.IsPlain) → HaveValues c d s args m values m' →
        m' = m := by
  have hLaws := fieldLaws_of_withProperty h
  refine ⟨hLaws, fun c d s m m' => ⟨?_, ?_, fun args values hPlain => HaveValues.machine_eq hPlain⟩⟩
  · intro name keyExpr valueExpr targetExpr hName
    have hSet {d : Int} {m : Machine} (hDepth : d ≤ c.levels) (hArgs : HaveValues c (d + 1) s
        [keyExpr, valueExpr, targetExpr] m [name, value, target] m') :
        evalAt c d (.special .setProperty [keyExpr, valueExpr, targetExpr]) s m = .ok v m' := by
      rw [evalAt_setProperty hName hDepth hArgs, h]
      rfl
    refine ⟨hSet, fun otherExpr otherName other m₁ hOther hDepth hKey hArgs => ?_⟩
    have hTarget : HaveValues c (d + 1) s
        [.special .setProperty [keyExpr, valueExpr, targetExpr]] m₁ [v] m' :=
      haveValues_cons_iff.mpr ⟨m', hSet hDepth hArgs, rfl⟩
    have hBoth := haveValues_cons_iff.mpr ⟨m₁, hKey, hTarget⟩
    rw [evalAt_getProperty hOther (by omega) hBoth]
    split
    · next hSame => rw [hSame, hLaws.written, Option.getD_some]
    · next hDiffers => rw [hLaws.others other hDiffers]
  · intro otherExpr otherName targetExpr other hOther hDepth hArgs
    exact evalAt_getProperty hOther hDepth hArgs

/-- The size of a point that has a name is set, and both are read. -/
theorem property_forms_lawful_size :
    let p : Symbol := ⟨"p", by decide⟩
    let m : Machine := { store := Store.empty.bind 0 p (.point 1.0 2.0) }
    let write := Expr.special .setProperty [.string "size", .number 5.0, .symbol p]
    ∃ v, evalAt (.exact 2) 0 write 0 m = .ok v m ∧ v.size = 5.0 ∧
      evalAt (.exact 2) 0 (.special .getProperty [.string "size", write]) 0 m =
        .ok (.number 5.0) m ∧
      evalAt (.exact 2) 0 (.special .getProperty [.string "size", .symbol p]) 0 m = .ok .none m := by
  intro p m write
  have hCheck : checkProperty "size" (.number 5.0) = .ok () :=
    (checkProperty_extent (.inl rfl)).mpr ⟨5.0, rfl, by decide +kernel⟩
  have hWrite : withProperty "size" (.number 5.0) (.point 1.0 2.0) =
      .ok ((Expr.point 1.0 2.0).setProperty "size" (.number 5.0)) :=
    withProperty_eq_ok_iff.mpr ⟨rfl, hCheck, rfl⟩
  obtain ⟨hLaws, hForms⟩ := property_forms_lawful hWrite
  obtain ⟨hSet, hGet, _⟩ := hForms (.exact 2) 0 0 m m
  obtain ⟨hSet, hGetSet⟩ := hSet (.string "size") (.string "size") (.number 5.0) (.symbol p) rfl
  refine ⟨_, hSet (by decide) rfl, ?_, ?_, ?_⟩
  · exact (Option.some.inj (hLaws.read.size rfl)).symm
  · exact hGetSet (.string "size") (.string "size") "size" m rfl (by decide) rfl rfl
  · exact hGet (.string "size") (.string "size") (.symbol p) "size" rfl (by decide) rfl

end PlotLang
