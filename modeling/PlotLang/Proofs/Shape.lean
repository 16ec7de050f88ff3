import PlotLang.Proofs.Part
import PlotLang.Proofs.Reading

/-! The shapes of plot objects. A plot object has the head and the children of
exactly one shape from the moment it is made. A renderer tells the shape of what is
not a plot by its name, and the name is a property that can be written like others.
So a plot object is drawn as the one shape that it has, or not at all: the latter
if the name of another shape was written over its own. A program that never says
the key of the name cannot do that. -/
namespace PlotLang

inductive Shape where
  | point | line | text | plot
deriving DecidableEq

/-- The name by which a renderer tells a shape. Plots need none. -/
def Shape.name? : Shape → Option String
  | point => some "point"
  | line => some "line"
  | text => some "text"
  | plot => none

namespace Expr
variable {e v : Expr} {s t : Shape}

/-- Whether a renderer draws the value as a shape. -/
def isDrawnAs (e : Expr) : Shape → Bool
  | .point => e.isPoint
  | .line => e.isLine
  | .text => e.isText
  | .plot => e.isRenderable

/-- Whether head and children are those of a shape, whatever the properties. -/
def hasBody (e : Expr) : Shape → Bool
  | .point => e.asPair?.isSome
  | .line =>
    match e.head, e.tail with
    | .list, [a, b] => a.isPoint && b.isPoint
    | _, _ => false
  | .text => e.asString?.isSome
  | .plot => e.isRenderable

/-- Whether a name is the one by which a renderer tells a shape. -/
def fitsName (name : Option String) (s : Shape) : Bool := s == .plot || name == s.name?

/-- A shape is drawn if the name does not speak against it and the parts are there. -/
theorem isDrawnAs_eq (e : Expr) (s : Shape) :
    e.isDrawnAs s = (fitsName e.objectName? s && e.hasBody s) := by
  cases s <;> rfl

theorem isList_of_isPoint (h : e.isPoint = true) : e.isList = true := by
  have hPair := (Bool.and_eq_true_iff.mp h).2
  cases hHead : e.head with
  | list => simp [isList, hHead]
  | _ => simp [asPair?, hHead] at hPair

/-- The shape by head and first child: the ends of a line are lists, the
coordinates of a point are not. -/
def bodyShape? (e : Expr) : Option Shape :=
  match e.head, e.tail with
  | .list, c :: _ => some (if c.isList then .line else .point)
  | .string _, _ => some .text
  | .discrete _, _ => some .plot
  | _, _ => Option.none

/-- The parts tell the shape. -/
theorem bodyShape?_of_hasBody (h : e.hasBody s = true) : e.bodyShape? = some s := by
  cases s with
  | point =>
      simp only [hasBody, asPair?] at h
      split at h
      · next a b hHead hTail =>
          have hNumber : a.isList = false := by
            cases ha : a.head with
            | list => simp [asNumber?, headNumber?, ha] at h
            | _ => simp [isList, ha]
          simp [bodyShape?, hHead, hTail, hNumber]
      · cases h
  | line =>
      simp only [hasBody] at h
      split at h
      · next a b hHead hTail =>
          have hPoint := isList_of_isPoint (Bool.and_eq_true_iff.mp h).1
          simp [bodyShape?, hHead, hTail, hPoint]
      · cases h
  | text =>
      cases hHead : e.head with
      | string text => simp [bodyShape?, hHead]
      | _ => simp [hasBody, asString?, headString?, hHead] at h
  | plot =>
      cases hHead : e.head with
      | discrete name => simp [bodyShape?, hHead]
      | _ => simp [hasBody, isRenderable, isPlot, hHead] at h

/-- Head and children tell the shapes apart. -/
theorem hasBody_unique (hs : e.hasBody s = true) (ht : e.hasBody t = true) : s = t :=
  Option.some.inj ((bodyShape?_of_hasBody hs).symm.trans (bodyShape?_of_hasBody ht))

/-- What is drawn as a shape has its body, so nothing is drawn as two shapes. -/
theorem isDrawnAs_unique (hs : e.isDrawnAs s = true) (ht : e.isDrawnAs t = true) : s = t := by
  rw [isDrawnAs_eq, Bool.and_eq_true] at hs ht
  exact hasBody_unique hs.2 ht.2

/-- Properties have no part in the body. -/
theorem hasBody_setProperty (e v : Expr) (key : String) (s : Shape) :
    (e.setProperty key v).hasBody s = e.hasBody s := by
  cases s <;> rfl

/-- Only a write to the name of an object changes it. -/
theorem objectName?_setProperty (e v : Expr) (key : String) :
    (e.setProperty key v).objectName? =
      if key = objectNameKey then v.headString? else e.objectName? := by
  split
  · next hKey => simp [objectName?, hKey]
  · next hKey => simp [objectName?, property?_setProperty_of_ne _ _ (Ne.symm hKey)]

/-- An object has a property, its name at least, unless it is a plot. -/
theorem isPlotObject_eq_false (hProperties : e.properties = []) (hPlot : e.isPlot = false) :
    e.isPlotObject = false := by
  simp [isPlotObject, objectName?, property?, hProperties, hPlot]

/-- A plot object has the body of some shape. -/
def Shaped (o : Expr) : Prop := o.isPlotObject = true → ∃ s, o.hasBody s = true

/-- A plot object is drawn as some shape. -/
def Drawn (o : Expr) : Prop := o.isPlotObject = true → ∃ s, o.isDrawnAs s = true

/-- What is drawn as some shape has the parts of that shape. -/
theorem Drawn.shaped {o : Expr} (h : o.Drawn) : o.Shaped := by
  intro hObject
  obtain ⟨s, hs⟩ := h hObject
  rw [isDrawnAs_eq, Bool.and_eq_true] at hs
  exact ⟨s, hs.2⟩

/-- What is no object need not be drawn. -/
theorem drawn_of_plain (hProperties : e.properties = []) (hPlot : e.isPlot = false) : e.Drawn := by
  intro hObject
  rw [isPlotObject_eq_false hProperties hPlot] at hObject
  cases hObject

/-- A line carries its own name and has two points. -/
theorem drawn_line {a c : Expr} (ha : a.isPoint = true) (hc : c.isPoint = true) :
    (Expr.line a c).Drawn := by
  have hLine : (Expr.line a c).isLine = (a.isPoint && c.isPoint) := rfl
  exact fun _ => ⟨.line, by rw [isDrawnAs, hLine, ha, hc, Bool.and_self]⟩

/-- A plot is drawn by its items. -/
theorem drawn_plot {name : String} {items : List Expr} (hItems : ∀ e ∈ items, e.isItem = true) :
    (Expr.plot name items).Drawn :=
  fun _ => ⟨.plot, List.all_eq_true.mpr hItems⟩

/-- Whatever is written, plot objects keep the body of their shape. -/
theorem shaped_objectLaws : ObjectLaws True Shaped where
  plain := fun hProperties hPlot => (drawn_of_plain hProperties hPlot).shaped
  point := fun _ _ _ => ⟨.point, rfl⟩
  line := fun ha hc => (drawn_line ha hc).shaped
  label := fun _ _ => ⟨.text, rfl⟩
  plot := fun hItems => (drawn_plot hItems).shaped
  written := by
    intro key value target v _ hTarget hv _
    obtain ⟨hObject, _, rfl⟩ := withProperty_eq_ok_iff.mp hv
    obtain ⟨s, hs⟩ := hTarget hObject
    exact ⟨s, (target.hasBody_setProperty value key s).trans hs⟩

/-- Where no name is written, plot objects are drawn as before. -/
theorem drawn_objectLaws : ObjectLaws False Drawn where
  plain := drawn_of_plain
  point := fun _ _ _ => ⟨.point, rfl⟩
  line := drawn_line
  label := fun _ _ => ⟨.text, rfl⟩
  plot := drawn_plot
  written := by
    intro key value target v hKey hTarget hv _
    obtain ⟨hObject, _, rfl⟩ := withProperty_eq_ok_iff.mp hv
    obtain ⟨s, hs⟩ := hTarget hObject
    refine ⟨s, ?_⟩
    rwa [isDrawnAs_eq, objectName?_setProperty, if_neg hKey, hasBody_setProperty, ← isDrawnAs_eq]

/-! Programs that never say the key of the name. Nothing makes a string but the
text of a program, and what a plot has as items is out of reach of programs. -/

/-- No string within reach of a program is the key of the name. -/
inductive Unnamed : Expr → Prop where
  | intro {e : Expr} (hHead : e.head ≠ .string objectNameKey)
      (hChildren : e.isPlot = false → ∀ c ∈ e.tail, Unnamed c)
      (hProperties : ∀ p ∈ e.properties, Unnamed p.2) : Unnamed e

/-- Only plots are opaque to programs. -/
theorem isPlot_eq_false_of_head {a : Atom} (hHead : e.head = a) (ha : ∀ name, a ≠ .discrete name) :
    e.isPlot = false := by
  subst hHead
  cases hHead : e.head with
  | discrete name => exact absurd hHead (ha name)
  | _ => simp [isPlot, hHead]

namespace Unnamed

/-- An expression is unnamed if its head is not the key of names and its parts are
unnamed. -/
theorem node {a : Atom} {es : List Expr} (ha : a ≠ .string objectNameKey)
    (hes : (Expr.node a es).isPlot = false → ∀ e ∈ es, e.Unnamed) : (Expr.node a es).Unnamed :=
  .intro ha hes fun p hp => by cases hp

theorem leaf {a : Atom} (ha : a ≠ .string objectNameKey) : (Expr.leaf a).Unnamed :=
  .node ha fun _ e he => by cases he

theorem list {es : List Expr} (hes : ∀ e ∈ es, e.Unnamed) : (Expr.list es).Unnamed :=
  .node (by simp) fun _ => hes

/-- Programs never get at the items of a plot, so nothing is known of these. -/
theorem child (he : e.Unnamed) (hPlot : e.isPlot = false) {c : Expr} (hc : c ∈ e.tail) :
    c.Unnamed := by
  cases he with
  | intro _ hChildren => exact hChildren hPlot c hc

theorem element (he : e.Unnamed) (hList : e.isList = true) {c : Expr} (hc : c ∈ e.tail) :
    c.Unnamed := by
  have hHead : e.head = .list := by
    cases hHead : e.head with
    | list => rfl
    | _ => simp [isList, hHead] at hList
  exact he.child (isPlot_eq_false_of_head hHead (by simp)) hc

theorem property (he : e.Unnamed) {key : String} (hv : e.property? key = some v) : v.Unnamed := by
  cases he with
  | intro _ _ hProperties => exact hProperties (key, v) (Table.mem_of_get? hv)

/-- Writing a property does not make the key of names a value. -/
theorem setProperty (he : e.Unnamed) (hv : v.Unnamed) (key : String) :
    (e.setProperty key v).Unnamed := by
  cases he with
  | intro hHead hChildren hProperties =>
      refine .intro hHead hChildren fun p hp => ?_
      rcases Table.mem_put hp with rfl | hOld
      · exact hv
      · exact hProperties p hOld

/-- An unnamed value is never the key under which names are kept. -/
theorem asString?_ne (he : e.Unnamed) : e.asString? ≠ some objectNameKey := by
  intro hText
  cases he with
  | intro hHead =>
      unfold asString? at hText
      split at hText
      · exact hHead (headString?_eq_some_iff.mp hText)
      · cases hText

/-- A procedure makes a text of a text it was given, and of nothing else. -/
theorem run {b : Builtin} {args : List Expr} (hArgs : ∀ a ∈ args, a.Unnamed)
    (hv : b.run args = .ok v) : v.Unnamed := by
  have hNumber (x : Float) : (Expr.number x).Unnamed := .leaf (by simp)
  have hParts {e : Expr} (he : Builtin.IsPart args e) : e.Unnamed := by
    rcases he with he | ⟨a, ha, hList, he⟩
    · exact hArgs e he
    · exact (hArgs a ha).element hList he
  cases Builtin.run_yields hv with
  | number x => cases x <;> exact .leaf (by simp [Number.toAtom])
  | part hPart => exact hParts hPart
  | list hElements =>
      refine .list fun e he => ?_
      rcases hElements e he with hPart | ⟨x, rfl⟩
      · exact hParts hPart
      · exact hNumber x
  | point x y =>
      have hPair : (Expr.list [.number x, .number y]).Unnamed :=
        .list (by simpa using ⟨hNumber x, hNumber y⟩)
      exact hPair.setProperty (.leaf (by decide)) _
  | @line a c hStart hStop _ =>
      have hEnds : (Expr.list [a, c]).Unnamed :=
        .list (by simpa using ⟨hArgs a hStart, hArgs c hStop⟩)
      exact hEnds.setProperty (.leaf (by decide)) _
  | label hArgument hText =>
      have hLabel : (Expr.string _).Unnamed :=
        .leaf fun h => (hArgs _ hArgument).asString?_ne (Atom.string.inj h ▸ hText)
      exact hLabel.setProperty (.leaf (by decide)) _

theorem valueLaws {Stage : Type} [Preorder Stage] :
    Correspondence.ValueLaws fun (_ : Stage) v => v.Unnamed where
  admits_mono := fun _ hv => hv
  admits_none := fun _ => .leaf (by simp)
  admits_number := fun _ _ => .leaf (by simp)
  admits_list := .list
  admits_element := fun hv hList hc => hv.element hList hc
  admits_run := .run
  admits_withProperty := by
    intro w name key value target v _ _ hValue hTarget hv
    obtain ⟨_, _, rfl⟩ := withProperty_eq_ok_iff.mp hv
    exact hTarget.setProperty hValue key
  admits_property := fun hTarget hv => hTarget.property hv
  admits_plot := fun _ _ _ _ _ => .node (by simp) fun h => by cases h

/-- A form without the key in it. -/
theorem of_isForm (he : e.IsForm) (hAtoms : .string objectNameKey ∉ e.atoms) : e.Unnamed := by
  induction he with
  | none => exact .leaf (by simp)
  | list => exact .list (by simp)
  | node _ _ ih =>
      rw [mem_atoms] at hAtoms
      simp only [not_or, not_exists, not_and] at hAtoms
      obtain ⟨hHead, hChildren, _⟩ := hAtoms
      exact .node (Ne.symm hHead) fun _ c hc => ih c hc (hChildren c hc)

/-- The body of a procedure is part of the text, where the key of names does not
stand. -/
theorem lambda {c : Closure} {forms : List Expr} (hForms : ∀ e ∈ forms, e.Unnamed) :
    (Expr.lambda c (bodyOf forms)).Unnamed := by
  refine .node (by simp) fun _ => List.forall_mem_singleton.mpr ?_
  rcases bodyOf_cases forms with hOne | hAll
  · exact hForms _ hOne
  · rw [hAll]
    exact .node (by simp) fun _ => hForms

end Unnamed
end Expr

/-- The key of the name is out of reach of all values, bound or not. -/
def Invariant.unnamed : Invariant Timeless where
  admits := fun _ v => v.Unnamed
  runs := fun _ e _ => e.Unnamed
  holds := fun _ m => m.store.All Expr.Unnamed

/-- In texts that do not contain the key of names, no evaluation produces it. -/
theorem Invariant.unnamed_preserved : Invariant.unnamed.Preserved where
  toValueLaws := Expr.Unnamed.valueLaws
  runs_mono := fun _ hRuns => hRuns
  runs_literal := fun hRuns _ => hRuns
  runs_special := by
    intro w e s k args a hRuns hForm _ ha
    obtain ⟨rfl, x, hHead, _⟩ := Expr.of_form_special hForm
    exact hRuns.child (Expr.isPlot_eq_false_of_head hHead (by simp)) ha
  runs_call := by
    intro w e s f args a hRuns hForm ha
    obtain ⟨rfl, hCompound, _⟩ := Expr.of_form_call hForm
    refine hRuns.child (Expr.isPlot_eq_false_of_head rfl fun name hHead => ?_) ha
    simp [Expr.isCompoundValue, hHead] at hCompound
  logged := fun hHolds _ => hHolds
  admits_lookup := fun _ hHolds hFound => hHolds.lookup hFound
  defined := by
    intro w e s name value x v m _ _ _ _ hv hHolds _
    exact ⟨w, le_rfl, hHolds.bind s x hv⟩
  minted := by
    intro w e s params forms formals m hRuns hForm _ _ hHolds
    refine ⟨w, le_rfl, hHolds, .lambda fun form hMember => ?_⟩
    obtain ⟨hArgs, x, hHead, _⟩ := Expr.of_form_special hForm
    exact hRuns.child (Expr.isPlot_eq_false_of_head hHead (by simp))
      (hArgs ▸ List.mem_cons_of_mem _ hMember)
  called := by
    intro w proc c body rest args m d hProc hHead hTail hArgs _ hHolds
    have hBody := hProc.child (Expr.isPlot_eq_false_of_head hHead (by simp))
      (hTail ▸ List.mem_cons_self)
    exact ⟨w, le_rfl, hBody, hHolds.call c hArgs⟩

namespace Session

/-- A text in which the key of the name is not said. -/
def Unnaming (source : String) : Prop :=
  ∀ form ∈ (TokenStream.ofSource source).readForms.1, .string Expr.objectNameKey ∉ form.atoms

/-- Whether the key is said can be computed from the derivation of a text. -/
theorem unnaming_of_derives {source : String} {δs : List Derivation} (h : Derives source δs)
    (hAtoms : ((Derivation.exprs? δs).all fun forms =>
      forms.all fun form => .string Expr.objectNameKey ∉ form.atoms) = true) :
    Unnaming source := by
  obtain ⟨forms, hForms⟩ := h.exists_exprs?
  have hRead : (TokenStream.ofSource source).readForms = (forms, none) :=
    TokenStream.readForms_eq_iff.mpr
      ⟨congrArg Prod.snd h, δs, (congrArg Prod.fst h).symm, hForms⟩
  intro form hForm
  rw [hRead] at hForm
  rw [hForms, Option.all_some, List.all_eq_true] at hAtoms
  exact of_decide_eq_true (hAtoms form hForm)

/-- Without the key of the name, all plot objects are drawn. -/
theorem ReachedBy.drawn {session : Session} (h : session.ReachedBy Unnaming) {v : Expr}
    (hv : session.Has Unnaming v) : v.Everywhere Expr.Drawn := by
  have hInitial : Store.initial.All Expr.Unnamed := by
    refine Store.all_initial (fun b => .leaf (by simp)) fun x => ?_
    cases x <;> exact .leaf (by simp [Number.toAtom])
  exact h.everywhere Invariant.unnamed_preserved Expr.drawn_objectLaws
    (fun hName hText => hName.asString?_ne hText) (fun _ => hInitial)
    (fun source hSource e he => .of_isForm (TokenStream.isForm_of_readForms _ e he)
      (hSource e he)) hv

/-- In every session, a plot object has the body of exactly one shape. It is drawn
as this shape if it bears the name of the shape or is a plot, and as none
otherwise. A write leaves the body and sets the name only if it writes the key of
the name. So where no text says this key, every plot object is drawn as exactly one
shape. -/
theorem Reached.objects_drawn {session : Session} (h : session.Reached) :
    (∀ v, session.Has (fun _ => True) v → ∀ o : Expr, o.Part v → o.isPlotObject = true →
      ∃ s, ∀ t, (o.hasBody t = true ↔ t = s) ∧
        (o.isDrawnAs t = true ↔ t = s ∧ Expr.fitsName o.objectName? s = true)) ∧
    (∀ (key : String) (value target v : Expr), withProperty key value target = .ok v →
      ∀ s, v.hasBody s = target.hasBody s ∧ v.objectName? =
        if key = Expr.objectNameKey then value.headString? else target.objectName?) ∧
    (session.ReachedBy Unnaming → ∀ v, session.Has Unnaming v → ∀ o : Expr, o.Part v →
      o.isPlotObject = true → ∃! s, o.isDrawnAs s = true) := by
  refine ⟨?_, ?_, ?_⟩
  · intro v hv o ho hObject
    obtain ⟨s, hs⟩ := h.everywhere Expr.shaped_objectLaws hv o ho hObject
    have hBody (t : Shape) : o.hasBody t = true ↔ t = s :=
      ⟨fun ht => Expr.hasBody_unique ht hs, fun ht => ht ▸ hs⟩
    refine ⟨s, fun t => ⟨hBody t, ?_⟩⟩
    rw [Expr.isDrawnAs_eq, Bool.and_eq_true, hBody]
    constructor
    · rintro ⟨hName, rfl⟩
      exact ⟨rfl, hName⟩
    · rintro ⟨rfl, hName⟩
      exact ⟨hName, rfl⟩
  · intro key value target v hv s
    obtain ⟨_, _, rfl⟩ := withProperty_eq_ok_iff.mp hv
    exact ⟨target.hasBody_setProperty value key s, target.objectName?_setProperty value key⟩
  · intro hTexts v hv o ho hObject
    obtain ⟨s, hs⟩ := hTexts.drawn hv o ho hObject
    exact ⟨s, hs, fun t ht => Expr.isDrawnAs_unique ht hs⟩

/-- A line with a note that says the name of another shape is drawn as one shape:
the text does not say the key of the name. -/
theorem objects_drawn_noted :
    ∃ v, ((Session.new 200).eval
        "(set-property \"note\" \"text\" (make-line (make-point 1 2) (make-point 3 4)))").1 = .ok v ∧
      v.isPlotObject = true ∧ ∃! s, v.isDrawnAs s = true := by
  have hDerives : Derives
      "(set-property \"note\" \"text\" (make-line (make-point 1 2) (make-point 3 4)))"
      [.list (.word "set-property") [.atom (.string "\"note\""), .atom (.string "\"text\""),
        .list (.word "make-line")
          [.list (.word "make-point") [.atom (.word "1"), .atom (.word "2")],
            .list (.word "make-point") [.atom (.word "3"), .atom (.word "4")]]]] := by
    decide +kernel
  obtain ⟨v, hValue, hObject⟩ := exists_of_derives (.new 200) Expr.isPlotObject hDerives
    (by decide +kernel)
  have hHas : (Session.new 200).Has Unnaming v :=
    .inr ⟨_, unnaming_of_derives hDerives (by decide +kernel), hValue⟩
  have hReached : (Session.new 200).Reached := .new 200
  exact ⟨v, hValue, hObject, hReached.objects_drawn.2.2 (.new 200) v hHas v .self hObject⟩

/-- A point that bears the name of a line is a plot object and drawn as no shape. -/
theorem renamed_point_not_drawn :
    ∃ v, ((Session.new 200).eval
        "(set-property \"object-name\" \"line\" (make-point 1 2))").1 = .ok v ∧
      v.isPlotObject = true ∧ ∀ s, v.isDrawnAs s = false := by
  have hDerives : Derives "(set-property \"object-name\" \"line\" (make-point 1 2))"
      [.list (.word "set-property") [.atom (.string "\"object-name\""),
        .atom (.string "\"line\""),
        .list (.word "make-point") [.atom (.word "1"), .atom (.word "2")]]] := by decide +kernel
  obtain ⟨v, hValue, hv⟩ := exists_of_derives (.new 200)
    (fun v => v.isPlotObject && !v.isDrawnAs .point && !v.isDrawnAs .line &&
      !v.isDrawnAs .text && !v.isDrawnAs .plot) hDerives (by decide +kernel)
  simp only [Bool.and_eq_true, Bool.not_eq_true'] at hv
  obtain ⟨⟨⟨⟨hObject, hPoint⟩, hLine⟩, hText⟩, hPlot⟩ := hv
  exact ⟨v, hValue, hObject, fun s => by cases s <;> assumption⟩

end Session
end PlotLang
