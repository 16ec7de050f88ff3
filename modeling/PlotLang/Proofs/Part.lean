import PlotLang.Proofs.Property
import PlotLang.Proofs.Session

/-! The parts of values. Values hold other values, as children and as properties,
and a renderer meets all of them. Plot objects are made in few ways and change in
one: by a property that they accept. So what these keep of a single expression
holds of every part of every value that a session has. -/
namespace PlotLang

namespace Expr

/-- An expression that occurs in another one: the other itself, or a part of one
of its children or of one of its properties. -/
inductive Part (o : Expr) : Expr → Prop where
  | self : Part o o
  | child {e c : Expr} (hChild : c ∈ e.tail) (hPart : Part o c) : Part o e
  | property {e : Expr} {p : String × Expr} (hProperty : p ∈ e.properties) (hPart : Part o p.2) :
      Part o e

/-- The property holds of all parts of an expression. -/
def Everywhere (P : Expr → Prop) (e : Expr) : Prop := ∀ o : Expr, o.Part e → P o

section Everywhere
variable {P : Expr → Prop} {e v : Expr}

/-- A property holds everywhere in an expression if it holds of the expression,
its children and the values of its properties. -/
theorem everywhere_iff :
    e.Everywhere P ↔ P e ∧ (∀ c ∈ e.tail, c.Everywhere P) ∧
      ∀ p ∈ e.properties, p.2.Everywhere P := by
  constructor
  · intro h
    exact ⟨h e .self, fun c hc o ho => h o (.child hc ho), fun p hp o ho => h o (.property hp ho)⟩
  · rintro ⟨hSelf, hChildren, hProperties⟩ o ho
    cases ho with
    | self => exact hSelf
    | child hChild hPart => exact hChildren _ hChild o hPart
    | property hProperty hPart => exact hProperties _ hProperty o hPart

/-- A node without properties has its own part and those of its children. -/
theorem Everywhere.node {a : Atom} {es : List Expr} (hSelf : P (.node a es))
    (hes : ∀ e ∈ es, e.Everywhere P) : (Expr.node a es).Everywhere P :=
  everywhere_iff.mpr ⟨hSelf, hes, fun p hp => by cases hp⟩

theorem Everywhere.child (h : e.Everywhere P) {c : Expr} (hc : c ∈ e.tail) : c.Everywhere P :=
  (everywhere_iff.mp h).2.1 c hc

theorem Everywhere.property (h : e.Everywhere P) {key : String} (hv : e.property? key = some v) :
    v.Everywhere P :=
  (everywhere_iff.mp h).2.2 (key, v) (Table.mem_of_get? hv)

/-- A property that is set adds the parts of its value, and no others. -/
theorem Everywhere.setProperty (h : e.Everywhere P) {key : String} (hv : v.Everywhere P)
    (hSelf : P (e.setProperty key v)) : (e.setProperty key v).Everywhere P := by
  refine everywhere_iff.mpr ⟨hSelf, fun c hc => h.child hc, fun p hp => ?_⟩
  rcases Table.mem_put hp with rfl | hOld
  · exact hv
  · exact (everywhere_iff.mp h).2.2 p hOld

end Everywhere
end Expr

/-- What the ways to make plot objects and to change them keep of a single
expression. Where the name of a shape must not be written, nothing is asked about
such writes. -/
structure ObjectLaws (renames : Prop) (P : Expr → Prop) : Prop where
  plain : ∀ {e : Expr}, e.properties = [] → e.isPlot = false → P e
  point : ∀ x y, P (.point x y)
  line : ∀ {a c : Expr}, a.isPoint = true → c.isPoint = true → P (.line a c)
  label : ∀ text, P (.label text)
  plot : ∀ {name items}, (∀ e ∈ items, e.isItem = true) → P (.plot name items)
  written : ∀ {key value target v}, (key = Expr.objectNameKey → renames) → P target →
    withProperty key value target = .ok v → P v

namespace ObjectLaws
variable {renames : Prop} {P : Expr → Prop} (hP : ObjectLaws renames P)
include hP

/-- Numbers, texts and names are no plot objects. -/
theorem everywhere_leaf {a : Atom} (ha : a.isDatum = true) : (Expr.leaf a).Everywhere P := by
  have hPlain : (Expr.leaf a).isPlot = false := by
    cases a with
    | discrete name => cases ha
    | _ => rfl
  exact .node (hP.plain rfl hPlain) (by simp)

theorem everywhere_list {es : List Expr} (hes : ∀ e ∈ es, e.Everywhere P) :
    (Expr.list es).Everywhere P :=
  .node (hP.plain rfl rfl) hes

/-- What the reader builds has no plot object in it. -/
theorem everywhere_form {e : Expr} (he : e.IsForm) : e.Everywhere P := by
  induction he with
  | none => exact hP.everywhere_leaf rfl
  | list => exact hP.everywhere_list (by simp)
  | @node a es hHead _ ih =>
      obtain ⟨_, hWord⟩ := hHead
      have hWritten := Atom.isWritten_of_ofWord? hWord
      have hPlain : (Expr.node a es).isPlot = false := by
        cases a with
        | discrete name => cases hWritten
        | _ => rfl
      exact .node (hP.plain rfl hPlain) ih

/-- The parts of a procedure are the parts of its forms. -/
theorem everywhere_lambda {c : Closure} {forms : List Expr} (hForms : ∀ e ∈ forms, e.Everywhere P) :
    (Expr.lambda c (bodyOf forms)).Everywhere P := by
  have hBody : (bodyOf forms).Everywhere P := by
    rcases bodyOf_cases forms with hOne | hAll
    · exact hForms _ hOne
    · rw [hAll]
      exact .node (hP.plain rfl rfl) hForms
  exact .node (hP.plain rfl rfl) (List.forall_mem_singleton.mpr hBody)

theorem everywhere_point (x y : Float) : (Expr.point x y).Everywhere P := by
  have hPair : (Expr.list [.number x, .number y]).Everywhere P :=
    hP.everywhere_list (by simpa using ⟨hP.everywhere_leaf rfl, hP.everywhere_leaf rfl⟩)
  exact hPair.setProperty (hP.everywhere_leaf rfl) (hP.point x y)

/-- A line is an object of its own besides its two points. -/
theorem everywhere_line {a c : Expr} (ha : a.Everywhere P) (hc : c.Everywhere P)
    (hStart : a.isPoint = true) (hStop : c.isPoint = true) : (Expr.line a c).Everywhere P := by
  have hEnds : (Expr.list [a, c]).Everywhere P := hP.everywhere_list (by simpa using ⟨ha, hc⟩)
  exact hEnds.setProperty (hP.everywhere_leaf rfl) (hP.line hStart hStop)

theorem everywhere_label (text : String) : (Expr.label text).Everywhere P := by
  have hText : (Expr.string text).Everywhere P := hP.everywhere_leaf rfl
  exact hText.setProperty (hP.everywhere_leaf rfl) (hP.label text)

/-- A write makes one new object, and the rest are parts of the value or the target. -/
theorem everywhere_written {key : String} {value target v : Expr}
    (hKey : key = Expr.objectNameKey → renames) (hValue : value.Everywhere P)
    (hTarget : target.Everywhere P) (hv : withProperty key value target = .ok v) :
    v.Everywhere P := by
  have hSelf := hP.written hKey (hTarget target .self) hv
  obtain ⟨_, _, rfl⟩ := withProperty_eq_ok_iff.mp hv
  exact hTarget.setProperty hValue hSelf

/-- Items are made by writes that would be accepted. -/
theorem everywhere_item {scale : Float} (hScale : 0.0 < scale) (item : Plot.Item Float) :
    (item.toExpr scale).Everywhere P := by
  have hNumber (x : Float) : (Expr.number x).Everywhere P := hP.everywhere_leaf rfl
  have hWrite {key : String} {value target : Expr} (hKey : key ≠ Expr.objectNameKey)
      (hValue : value.Everywhere P) (hTarget : target.Everywhere P)
      (hObject : target.isPlotObject = true) (hCheck : checkProperty key value = .ok ()) :
      (target.setProperty key value).Everywhere P :=
    hP.everywhere_written (fun h => absurd h hKey) hValue hTarget
      (withProperty_eq_ok_iff.mpr ⟨hObject, hCheck, rfl⟩)
  cases item with
  | dot p =>
      exact hWrite (by decide) (hNumber 0.5) (hP.everywhere_point p.x p.y) rfl
        ((checkProperty_extent (.inl rfl)).mpr ⟨0.5, rfl, by decide +kernel⟩)
  | segment a b =>
      have hLine := hP.everywhere_line (hP.everywhere_point a.x a.y) (hP.everywhere_point b.x b.y)
        rfl rfl
      exact hWrite (by decide) (hNumber 0.0) hLine rfl
        ((checkProperty_extent (.inr rfl)).mpr ⟨0.0, rfl, by decide +kernel⟩)
  | label text p turned =>
      have hPlaced := hWrite (by decide) (hP.everywhere_point p.x p.y) (hP.everywhere_label text) rfl
        (checkProperty_position.mpr rfl)
      have hScaled := hWrite (by decide) (hNumber scale) hPlaced rfl
        (checkProperty_textScale.mpr ⟨scale, rfl, float_not_nonpos_of_pos hScale⟩)
      exact hWrite (by decide) (hNumber (Plot.rotation turned)) hScaled rfl
        (checkProperty_textRotation.mpr ⟨_, rfl⟩)

/-- Objects come from a builtin only as new points, lines and texts, or within the
arguments. -/
theorem everywhere_run {b : Builtin} {args : List Expr} {v : Expr}
    (hArgs : ∀ a ∈ args, a.Everywhere P) (hv : b.run args = .ok v) : v.Everywhere P := by
  have hParts {e : Expr} (he : Builtin.IsPart args e) : e.Everywhere P := by
    rcases he with he | ⟨a, ha, _, he⟩
    · exact hArgs e he
    · exact (hArgs a ha).child he
  cases Builtin.run_yields hv with
  | number x => cases x <;> exact hP.everywhere_leaf rfl
  | part hPart => exact hParts hPart
  | list hElements =>
      refine hP.everywhere_list fun e he => ?_
      rcases hElements e he with hPart | ⟨x, rfl⟩
      · exact hParts hPart
      · exact hP.everywhere_leaf rfl
  | point x y => exact hP.everywhere_point x y
  | line hStart hStop hPoints =>
      obtain ⟨ha, hc⟩ := Bool.and_eq_true_iff.mp hPoints
      exact hP.everywhere_line (hArgs _ hStart) (hArgs _ hStop) ha hc
  | label _ _ => exact hP.everywhere_label _

end ObjectLaws

/-! Invariants with a property of all parts. -/

/-- A property of all values that a store binds. -/
def Store.All (P : Expr → Prop) (st : Store) : Prop := ∀ i, ∀ p ∈ (st.scope i).vars, P p.2

namespace Store.All
variable {P : Expr → Prop} {st : Store}

/-- What is true of all values in the store is true of the value of every name. -/
theorem lookup (h : st.All P) {s : ScopeId} {x : Symbol} {v : Expr}
    (hFound : st.lookup? s x = some v) : P v := by
  obtain ⟨i, hi⟩ := exists_mem_of_lookup? hFound
  exact h i (x, v) hi

theorem bind (h : st.All P) (s : ScopeId) (x : Symbol) {v : Expr} (hv : P v) :
    (st.bind s x v).All P := by
  intro i p hp
  rcases st.mem_vars_bind hp with rfl | hOld
  · exact hv
  · exact h i p hOld

theorem call (h : st.All P) (c : Closure) {args : List Expr} (hArgs : ∀ a ∈ args, P a) :
    (st.extend (.ofCall c args)).All P := by
  intro i p hp
  rw [scope_extend] at hp
  split at hp
  · exact hArgs p.2 (Scope.mem_args_of_mem_ofCall hp)
  · exact h i p hp

end Store.All

/-- The initial store binds procedures and numbers. -/
theorem Store.all_initial {P : Expr → Prop} (hProcedure : ∀ b, P (.leaf (.procedure b)))
    (hNumber : ∀ x : Number, P x.toExpr) : Store.initial.All P := by
  intro i p hp
  have hBindings := ((foldl_register initialBindings empty).2.2 i).2 p hp
  rw [scope_empty] at hBindings
  rcases List.mem_append.mp (hBindings.resolve_right (by simp)) with hBuiltin | hConstant
  · obtain ⟨b, _, rfl⟩ := List.mem_map.mp hBuiltin
    exact hProcedure b
  · obtain ⟨c, _, rfl⟩ := List.mem_map.mp hConstant
    exact hNumber c.value

namespace Invariant
variable {Stage : Type} [Preorder Stage] {I : Invariant Stage} {renames : Prop} {P : Expr → Prop}

variable (I P) in
/-- The invariant, and a property of all parts of all values besides. -/
def everywhere : Invariant Stage where
  admits := fun w v => I.admits w v ∧ v.Everywhere P
  runs := fun w e s => I.runs w e s ∧ e.Everywhere P
  holds := fun w m => I.holds w m ∧ m.store.All (Expr.Everywhere P)

/-- A property that all ways to make objects have is kept beside every invariant. -/
theorem Preserved.everywhere (hI : I.Preserved) (hP : ObjectLaws renames P)
    (hKeys : ∀ {w name}, I.admits w name → name.asString? = some Expr.objectNameKey → renames) :
    (I.everywhere P).Preserved where
  admits_mono := fun hStage hv => ⟨hI.admits_mono hStage hv.1, hv.2⟩
  admits_none := fun w => ⟨hI.admits_none w, hP.everywhere_leaf rfl⟩
  admits_number := fun w x => ⟨hI.admits_number w x, hP.everywhere_leaf rfl⟩
  admits_list := fun hvs =>
    ⟨hI.admits_list fun v hv => (hvs v hv).1, hP.everywhere_list fun v hv => (hvs v hv).2⟩
  admits_element := fun hv hList hc => ⟨hI.admits_element hv.1 hList hc, hv.2.child hc⟩
  admits_run := fun hArgs hRun =>
    ⟨hI.admits_run (fun a ha => (hArgs a ha).1) hRun,
      hP.everywhere_run (fun a ha => (hArgs a ha).2) hRun⟩
  admits_withProperty := by
    intro w name key value target v hName hText hValue hTarget hv
    refine ⟨hI.admits_withProperty hName.1 hText hValue.1 hTarget.1 hv, ?_⟩
    refine hP.everywhere_written (fun hKey => ?_) hValue.2 hTarget.2 hv
    exact hKeys hName.1 (hKey ▸ hText)
  admits_property := fun hTarget hv => ⟨hI.admits_property hTarget.1 hv, hTarget.2.property hv⟩
  admits_plot := by
    intro w name scale items hScale
    refine ⟨hI.admits_plot w name items hScale, .node (hP.plot ?_) ?_⟩
    · intro e he
      obtain ⟨item, _, rfl⟩ := List.mem_map.mp he
      exact item.isItem_toExpr scale
    · intro e he
      obtain ⟨item, _, rfl⟩ := List.mem_map.mp he
      exact hP.everywhere_item hScale item
  runs_mono := fun hStage hRuns => ⟨hI.runs_mono hStage hRuns.1, hRuns.2⟩
  runs_literal := fun hRuns hForm => ⟨hI.runs_literal hRuns.1 hForm, hRuns.2⟩
  runs_special := by
    intro w e s k args a hRuns hForm hKeyword ha
    refine ⟨hI.runs_special hRuns.1 hForm hKeyword ha, ?_⟩
    obtain ⟨rfl, _⟩ := Expr.of_form_special hForm
    exact hRuns.2.child ha
  runs_call := by
    intro w e s f args a hRuns hForm ha
    refine ⟨hI.runs_call hRuns.1 hForm ha, ?_⟩
    obtain ⟨rfl, _⟩ := Expr.of_form_call hForm
    exact hRuns.2.child ha
  logged := fun hHolds hr => ⟨hI.logged hHolds.1 hr, hHolds.2⟩
  admits_lookup := fun hRuns hHolds hFound =>
    ⟨hI.admits_lookup hRuns.1 hHolds.1 hFound, hHolds.2.lookup hFound⟩
  defined := by
    intro w e s name value x v m hRuns hForm hName hKeyword hv hHolds hFree
    obtain ⟨w', hStage, hDefined⟩ := hI.defined hRuns.1 hForm hName hKeyword hv.1 hHolds.1 hFree
    exact ⟨w', hStage, hDefined, hHolds.2.bind s x hv.2⟩
  minted := by
    intro w e s params forms formals m hRuns hForm hForms hFormals hHolds
    obtain ⟨w', hStage, hMinted, hValue⟩ := hI.minted hRuns.1 hForm hForms hFormals hHolds.1
    refine ⟨w', hStage, ⟨hMinted, hHolds.2⟩, hValue, hP.everywhere_lambda fun form hMember => ?_⟩
    obtain ⟨hArgs, _⟩ := Expr.of_form_special hForm
    exact hRuns.2.child (hArgs ▸ List.mem_cons_of_mem _ hMember)
  called := by
    intro w proc c body rest args m d hProc hHead hTail hArgs hArity hHolds
    obtain ⟨w', hStage, hRuns, hCalled⟩ :=
      hI.called d hProc.1 hHead hTail (fun a ha => (hArgs a ha).1) hArity hHolds.1
    exact ⟨w', hStage, ⟨hRuns, hProc.2.child (hTail ▸ List.mem_cons_self)⟩, hCalled,
      hHolds.2.call c fun a ha => (hArgs a ha).2⟩

end Invariant

/-! Sessions with texts of some kind. -/

namespace Session
variable {kind : String → Prop}

/-- The sessions that can come up if all texts are of a kind. -/
inductive ReachedBy (kind : String → Prop) : Session → Prop where
  | new (limit : Int) : ReachedBy kind (.new limit)
  | eval {session : Session} (h : ReachedBy kind session) {source : String} (hSource : kind source) :
      ReachedBy kind (session.eval source).2
  | reset {session : Session} (h : ReachedBy kind session) : ReachedBy kind session.reset

/-- Every session is reached by texts of which nothing is asked. -/
theorem Reached.reachedBy {session : Session} (h : session.Reached) :
    session.ReachedBy fun _ => True := by
  induction h with
  | new limit => exact .new limit
  | eval _ source ih => exact ih.eval trivial
  | reset _ ih => exact ih.reset

/-- A value that a session has: it is bound in some scope, or it is the value of
some text of the kind. -/
def Has (kind : String → Prop) (session : Session) (v : Expr) : Prop :=
  (∃ i x, (x, v) ∈ (session.machine.store.scope i).vars) ∨
    ∃ source, kind source ∧ (session.eval source).1 = .ok v

variable {I : Invariant Timeless} {renames : Prop} {P : Expr → Prop}

/-- What texts of a kind keep holds however many of them were evaluated. -/
theorem ReachedBy.holds (hI : I.Preserved)
    (hInitial : ∀ log, I.holds .always { store := Store.initial, log })
    (hForms : ∀ source, kind source → ∀ e ∈ (TokenStream.ofSource source).readForms.1,
      I.runs .always e Store.root)
    {session : Session} (h : session.ReachedBy kind) : I.holds .always session.machine := by
  induction h with
  | new limit => exact hInitial #[]
  | @eval session _ source hSource ih =>
      obtain ⟨_, _, hAfter, _⟩ := hI.eval_of_forms (fun _ _ => hForms source hSource) ih
      exact hAfter
  | reset _ _ => exact hInitial _

/-- What plot objects keep holds of all parts of all values that come up. The texts
must be such that no name is written which must not be. -/
theorem ReachedBy.everywhere (hI : I.Preserved) (hP : ObjectLaws renames P)
    (hKeys : ∀ {w name}, I.admits w name → name.asString? = some Expr.objectNameKey → renames)
    (hInitial : ∀ log, I.holds .always { store := Store.initial, log })
    (hForms : ∀ source, kind source → ∀ e ∈ (TokenStream.ofSource source).readForms.1,
      I.runs .always e Store.root)
    {session : Session} (h : session.ReachedBy kind) {v : Expr} (hv : session.Has kind v) :
    v.Everywhere P := by
  have hJ := hI.everywhere hP hKeys
  have hStart (log : Array LogRecord) :
      (I.everywhere P).holds .always { store := Store.initial, log } := by
    refine ⟨hInitial log, Store.all_initial (fun b => hP.everywhere_leaf rfl) fun x => ?_⟩
    cases x <;> exact hP.everywhere_leaf rfl
  have hRuns (source : String) (hSource : kind source) :
      ∀ e ∈ (TokenStream.ofSource source).readForms.1, (I.everywhere P).runs .always e Store.root :=
    fun e he => ⟨hForms source hSource e he,
      hP.everywhere_form (TokenStream.isForm_of_readForms _ e he)⟩
  have hHolds := h.holds hJ hStart hRuns
  rcases hv with ⟨i, x, hBound⟩ | ⟨source, hSource, hReturned⟩
  · exact hHolds.2 i (x, v) hBound
  · obtain ⟨_, _, _, hAdmits⟩ := hJ.eval_of_forms (fun _ _ => hRuns source hSource) hHolds
    exact (hAdmits v hReturned).2

/-- The same of all texts, where any name may be written. -/
theorem Reached.everywhere (hP : ObjectLaws True P) {session : Session} (h : session.Reached)
    {v : Expr} (hv : session.Has (fun _ => True) v) : v.Everywhere P := by
  have hInitial : Store.initial.All Expr.WellFormed := by
    refine Store.all_initial (fun b => .leaf rfl) fun x => ?_
    cases x <;> exact .leaf rfl
  exact h.reachedBy.everywhere Invariant.wellFormed_preserved hP (fun _ _ => trivial)
    (fun _ => hInitial) (fun _ _ e he => TokenStream.isForm_of_readForms _ e he) hv

end Session
end PlotLang
