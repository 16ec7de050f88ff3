import PlotLang.Proofs.Correspondence.Values
import PlotLang.Proofs.Invariant
import PlotLang.Proofs.Source.Form

/-! Values. Programs and values share one representation, so what a value looks
like is a property of evaluation and not of the type. Every operation keeps
values well-formed, and a well-formed value is its own value in every scope. -/
namespace PlotLang

/-- Parameters that a procedure may have: distinct and no keywords. -/
def FormalsValid (formals : List Symbol) : Prop :=
  formals.Nodup ∧ ∀ x ∈ formals, x.isKeyword = false

namespace Expr

/-- A value that evaluation may give: code occurs in it only as the body of a
procedure, and properties only on plot objects. -/
inductive WellFormed : Expr → Prop where
  | intro {e : Expr} (hDatum : e.head.isDatum = true → e.tail = [])
      (hSymbol : ∀ x, e.head ≠ .symbol x)
      (hChildren : e.isList = true ∨ e.isPlot = true → ∀ c ∈ e.tail, WellFormed c)
      (hClosure : ∀ c, e.head = .lambda c →
        (∃ body, e.tail = [body] ∧ body.IsForm) ∧ FormalsValid c.formals)
      (hPlot : e.isPlot = true → e.isRenderable = true)
      (hObject : e.properties ≠ [] → e.isPlotObject = true)
      (hProperties : ∀ p ∈ e.properties, WellFormed p.2) : WellFormed e

namespace WellFormed
variable {e v : Expr}

/-- The elements of a list and the items of a plot are well-formed. -/
theorem child (he : e.WellFormed) (hCompound : e.isList = true ∨ e.isPlot = true) {c : Expr}
    (hc : c ∈ e.tail) : c.WellFormed := by
  cases he with
  | intro _ _ hChildren => exact hChildren hCompound c hc

/-- A procedure has one body and distinct parameters that are no keywords. -/
theorem closure (he : e.WellFormed) {c : Closure} (hHead : e.head = .lambda c) :
    (∃ body, e.tail = [body] ∧ body.IsForm) ∧ FormalsValid c.formals := by
  cases he with
  | intro _ _ _ hClosure => exact hClosure c hHead

/-- Properties have well-formed values. -/
theorem property (he : e.WellFormed) {key : String} (hv : e.property? key = some v) :
    v.WellFormed := by
  cases he with
  | intro _ _ _ _ _ _ hProperties => exact hProperties (key, v) (Table.mem_of_get? hv)

/-- The children of a value are not evaluated again, so a value is a literal. -/
theorem form_eq_literal (he : e.WellFormed) : e.form = .literal := by
  cases he with
  | intro hDatum hSymbol =>
      cases hHead : e.head with
      | symbol x => exact absurd hHead (hSymbol x)
      | list | lambda c | discrete name => simp [form, hHead, isCompoundValue]
      | none | number x | complex z | string t | procedure b =>
          have hLeaf : e.isLeaf = true := by
            simp [isLeaf, hDatum (by rw [hHead]; rfl)]
          simp [form, hHead, hLeaf]

theorem leaf {a : Atom} (ha : a.isDatum = true) : (leaf a).WellFormed := by
  refine .intro (fun _ => rfl) ?_ (fun _ c hc => by cases hc) ?_ ?_ (fun h => absurd rfl h)
    (fun p hp => by cases hp)
  · rintro x rfl
    cases ha
  · rintro c rfl
    cases ha
  · cases a with
    | discrete name => cases ha
    | _ => exact fun h => by cases h

theorem list {es : List Expr} (hes : ∀ e ∈ es, e.WellFormed) : (Expr.list es).WellFormed :=
  .intro (fun h => by cases h) (fun _ h => by cases h) (fun _ => hes) (fun _ h => by cases h)
    (fun h => by cases h) (fun h => absurd rfl h) (fun p hp => by cases hp)

theorem plot {name : String} {items : List Expr} (hItems : ∀ e ∈ items, e.WellFormed)
    (hDrawn : ∀ e ∈ items, e.isItem = true) :
    (Expr.plot name items).WellFormed :=
  .intro (fun h => by cases h) (fun _ h => by cases h) (fun _ => hItems) (fun _ h => by cases h)
    (fun _ => List.all_eq_true.mpr hDrawn) (fun _ => rfl) (fun p hp => by cases hp)

theorem lambda {c : Closure} {body : Expr} (hBody : body.IsForm) (hFormals : FormalsValid c.formals) :
    (Expr.lambda c body).WellFormed := by
  refine .intro (fun h => by cases h) (fun _ h => by cases h) (fun h => ?_) ?_
    (fun h => by cases h) (fun h => absurd rfl h) (fun p hp => by cases hp)
  · rcases h with h | h <;> cases h
  · intro c' hHead
    cases hHead
    exact ⟨⟨body, rfl, hBody⟩, hFormals⟩

/-- Properties are set on plot objects only; head and children stay. -/
theorem setProperty (he : e.WellFormed) (hv : v.WellFormed) {key : String}
    (hObject : (e.setProperty key v).isPlotObject = true) : (e.setProperty key v).WellFormed := by
  cases he with
  | intro hDatum hSymbol hChildren hClosure hPlot _ hProperties =>
      refine .intro hDatum hSymbol hChildren hClosure hPlot (fun _ => hObject) fun p hp => ?_
      rcases Table.mem_put hp with rfl | hOld
      · exact hv
      · exact hProperties p hOld

end WellFormed

/-- Values put together from well-formed ones are well-formed. -/
theorem wellFormed_constructive {Stage : Type} [Preorder Stage] :
    Correspondence.Constructive fun (_ : Stage) v => v.WellFormed where
  mono := fun _ hv => hv
  datum := .leaf
  list := .list
  element := fun hv hList hc => hv.child (.inl hList) hc
  setProperty := fun he hv hObject => he.setProperty hv hObject
  property := fun he hv => he.property hv
  plot := .plot

end Expr

/-! Forms. The arguments of a form are forms, and so is the body of a procedure. -/

/-- The body of a procedure is one of its forms, or all of them in sequence. -/
theorem bodyOf_cases (forms : List Expr) :
    bodyOf forms ∈ forms ∨
      bodyOf forms = Expr.node (.symbol Keyword.sequence.symbol) forms := by
  unfold bodyOf
  split
  · exact .inl List.mem_cons_self
  · exact .inr rfl

namespace Expr.IsForm
variable {e : Expr}

theorem child (he : e.IsForm) {c : Expr} (hc : c ∈ e.tail) : c.IsForm := by
  cases he with
  | none | list => cases hc
  | node _ hChildren => exact hChildren c hc

/-- A form that is its own value is a leaf, so nothing in it could be code. -/
theorem wellFormed (he : e.IsForm) (hLiteral : e.form = .literal) : e.WellFormed := by
  obtain ⟨hShape, hName⟩ := of_form_literal hLiteral
  cases he with
  | none => exact .leaf rfl
  | list => exact .list (by simp)
  | @node a es hHead _ =>
      obtain ⟨_, hWord⟩ := hHead
      have hWritten := Atom.isWritten_of_ofWord? hWord
      have hDatum : a.isDatum = true ∧ (Expr.node a es).isCompoundValue = false := by
        cases a with
        | number x | string t => exact ⟨rfl, rfl⟩
        | symbol x => exact absurd rfl (hName x)
        | none | complex z | procedure b | list | lambda c | discrete name => cases hWritten
      have hLeaf : es = [] := by
        rcases hShape with hTail | hCompound
        · exact hTail
        · rw [hDatum.2] at hCompound
          cases hCompound
      rw [hLeaf]
      exact .leaf hDatum.1

/-- The body of a procedure is a form of the text, or several of them in sequence. -/
theorem bodyOf {forms : List Expr} (hForms : ∀ e ∈ forms, e.IsForm) : (bodyOf forms).IsForm := by
  rcases bodyOf_cases forms with hOne | hAll
  · exact hForms _ hOne
  · rw [hAll]
    exact .node ⟨Keyword.sequence.name, by decide⟩ hForms

end Expr.IsForm

/-- An accepted parameter is a symbol, no keyword and new. -/
theorem addFormal_valid {formals formals' : List Symbol} {c : Expr} (hFormals : FormalsValid formals)
    (h : addFormal formals c = .ok formals') : FormalsValid formals' := by
  unfold addFormal at h
  cases hName : c.asSymbol? with
  | none =>
      rw [hName] at h
      cases h
  | some x =>
      simp only [hName] at h
      by_cases hKeyword : x.isKeyword = true
      · rw [if_pos hKeyword] at h
        cases h
      · rw [if_neg hKeyword] at h
        by_cases hKnown : formals.contains x = true
        · rw [if_pos hKnown] at h
          cases h
        · rw [if_neg hKnown] at h
          cases h
          obtain ⟨hDistinct, hNames⟩ := hFormals
          have hNew : x ∉ formals := by simpa using hKnown
          constructor
          · refine List.nodup_append.mpr ⟨hDistinct, by simp, fun y hy z hz => ?_⟩
            rw [List.mem_singleton.mp hz]
            exact fun hSame => hNew (hSame ▸ hy)
          · intro y hy
            rcases List.mem_append.mp hy with hOld | hLast
            · exact hNames y hOld
            · rw [List.mem_singleton.mp hLast]
              simpa using hKeyword

/-- The induction is on the parameters still to be added. -/
theorem parseFormals_valid {params : Expr} {formals : List Symbol}
    (h : parseFormals params = .ok formals) : FormalsValid formals := by
  have hAll (candidates : List Expr) (before : List Symbol) (hBefore : FormalsValid before)
      (h : candidates.foldlM addFormal before = .ok formals) : FormalsValid formals := by
    induction candidates generalizing before with
    | nil =>
        cases h
        exact hBefore
    | cons c candidates ih =>
        rw [List.foldlM_cons] at h
        obtain ⟨longer, hLonger, h⟩ := bind_eq_ok h
        exact ih longer (addFormal_valid hBefore hLonger) h
  have hEmpty : FormalsValid [] := ⟨List.nodup_nil, by simp⟩
  unfold parseFormals at h
  split at h
  · cases h
    exact hEmpty
  · cases h
    exact ⟨by decide, by decide⟩
  · exact hAll _ [] hEmpty h

def Store.WellFormed (st : Store) : Prop :=
  ∀ i, ∀ p ∈ (st.scope i).vars, p.2.WellFormed

theorem Store.WellFormed.bind {st : Store} (hStore : st.WellFormed) (s : ScopeId) (x : Symbol)
    {v : Expr} (hv : v.WellFormed) : (st.bind s x v).WellFormed := by
  intro i p hp
  rcases st.mem_vars_bind hp with rfl | hOld
  · exact hv
  · exact hStore i p hOld

/-- The scope of a call holds its arguments, which are values. -/
theorem Store.WellFormed.extend {st : Store} (hStore : st.WellFormed) {sc : Scope}
    (hScope : ∀ p ∈ sc.vars, p.2.WellFormed) : (st.extend sc).WellFormed := by
  intro i p hp
  rw [scope_extend] at hp
  split at hp
  · exact hScope p hp
  · exact hStore i p hp

/-- Only forms are evaluated, and all values are well-formed. -/
def Invariant.wellFormed : Invariant Timeless where
  admits := fun _ v => v.WellFormed
  runs := fun _ e _ => e.IsForm
  holds := fun _ m => m.store.WellFormed

/-- Every step makes well-formed values of well-formed ones. -/
theorem Invariant.wellFormed_preserved : Invariant.wellFormed.Preserved where
  toValueLaws := Expr.wellFormed_constructive.valueLaws
  toFormLaws := .of_children (fun _ he => he) (fun he hForm => he.wellFormed hForm)
    fun he hc => he.child hc
  logged := fun hStore _ => hStore
  admits_lookup := by
    intro w e s m x v _ hStore hFound
    obtain ⟨i, hi⟩ := Store.exists_mem_of_lookup? hFound
    exact hStore i (x, v) hi
  defined := by
    intro w e s name value x v m _ _ _ _ hv hStore _
    exact ⟨w, le_rfl, hStore.bind s x hv⟩
  minted := by
    intro w e s params forms formals m he hForm _ hFormals hStore
    refine ⟨w, le_rfl, hStore, .lambda (.bodyOf fun form hMember => ?_) (parseFormals_valid hFormals)⟩
    obtain ⟨hArgs, _⟩ := Expr.of_form_special hForm
    exact he.child (hArgs ▸ List.mem_cons_of_mem _ hMember)
  called := by
    intro w proc c body rest args m d hProc hHead hTail hArgs _ hStore
    obtain ⟨⟨body', hBody, hIsForm⟩, _⟩ := hProc.closure hHead
    rw [hTail] at hBody
    cases hBody
    refine ⟨w, le_rfl, hIsForm, hStore.extend fun p hp => ?_⟩
    exact hArgs p.2 (Scope.mem_args_of_mem_ofCall hp)

/-- Evaluating a value again gives it back and does nothing else. -/
theorem Expr.WellFormed.evaluate {v : Expr} (hv : v.WellFormed) {limit : Int} (hLimit : 0 ≤ limit)
    (s : ScopeId) (m : Machine) : PlotLang.evaluate limit v s m = .ok v m := by
  have hLevels := (Ceiling.levels_ofLimit_nonneg_iff limit).mpr hLimit
  unfold PlotLang.evaluate
  rw [evalAt_eq_step, if_pos hLevels]
  unfold Level.step
  rw [hv.form_eq_literal]
  rfl

end PlotLang
