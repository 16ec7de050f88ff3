import PlotLang.Proofs.Correspondence.Evaluation

/-! Invariants of evaluation: what one machine keeps while it runs. Such an
invariant is the correspondence of every evaluation with itself, so the
induction over the rules of the language is the one for correspondences. An
invariant holds of the machine that an evaluation ends in, no matter whether it
ends in a value or an error. -/
namespace PlotLang

open EStateM (Result)

/-- The machine at the end of an evaluation, which an error leaves as it was
when the error arose. -/
def Outcome.machine {ε α : Type} : Result ε Machine α → Machine
  | .ok _ m => m
  | .error _ m => m

/-- What is known while a machine runs: of values, of the expressions that are
evaluated, and of the machine itself. -/
structure Invariant (Stage : Type) [Preorder Stage] where
  admits : Stage → Expr → Prop
  runs : Stage → Expr → ScopeId → Prop
  holds : Stage → Machine → Prop

namespace Invariant
variable {Stage : Type} [Preorder Stage] (I : Invariant Stage)

/-- The single operations keep the invariant. -/
structure Preserved : Prop extends Correspondence.ValueLaws I.admits,
    Correspondence.FormLaws I.admits I.runs where
  logged : ∀ {w m r}, I.holds w m → r.isCall = false → I.holds w (m.logged r)
  admits_lookup : ∀ {w e s m x v}, I.runs w e s → I.holds w m → m.store.lookup? s x = some v →
    I.admits w v
  defined : ∀ {w e s name value x v m}, I.runs w e s → e.form = .special .define [name, value] →
    name.asSymbol? = some x → x.isKeyword = false → I.admits w v → I.holds w m →
    m.store.isReserved s x = false → ∃ w' ≥ w, I.holds w' (m.defined s x v)
  minted : ∀ {w e s params forms formals m}, I.runs w e s →
    e.form = .special .lambda (params :: forms) → forms ≠ [] → parseFormals params = .ok formals →
    I.holds w m → ∃ w' ≥ w, I.holds w' m.minted ∧
      I.admits w' (.lambda ⟨m.store.closures, formals, s⟩ (bodyOf forms))
  called : ∀ {w proc c body rest args m} (d : Int), I.admits w proc → proc.head = .lambda c →
    proc.tail = body :: rest → (∀ a ∈ args, I.admits w a) → args.length = c.formals.length →
    I.holds w m → ∃ w' ≥ w, I.runs w' body m.store.scopes.size ∧ I.holds w' (m.called d c args)

/-- The invariant at the end of an evaluation that began at the given stage. -/
inductive Ends {ε : Type} (w : Stage) : Result ε Machine Expr → Prop where
  | ok {w' : Stage} {v : Expr} {m : Machine} (hStage : w ≤ w') (hHolds : I.holds w' m)
      (hAdmits : I.admits w' v) : Ends w (.ok v m)
  | error {w' : Stage} {e : ε} {m : Machine} (hStage : w ≤ w') (hHolds : I.holds w' m) :
      Ends w (.error e m)

/-- The correspondence of an evaluation with itself. Logs are left out, since
nothing reads them. -/
def toCorrespondence : Correspondence Stage where
  names := .refl
  admits := I.admits
  runs := I.runs
  machine := fun w m m' => m'.store = m.store ∧ I.holds w m
  error := fun e e' => e' = e
  excused := fun _ => False

variable {I}

/-- An invariant is a correspondence of a run with itself. -/
theorem Preserved.toLawful (hI : I.Preserved) : I.toCorrespondence.Lawful where
  toValueLaws := hI.toValueLaws
  toFormLaws := hI.toFormLaws
  error_rename := fun e => e.rename_refl
  machine_logged := by
    rintro w m m' r ⟨hStore, hHolds⟩ hr
    exact ⟨hStore, hI.logged hHolds hr⟩
  lookup := by
    rintro w e s m m' _ ⟨hStore, _⟩ x
    simp [toCorrespondence, hStore]
  admits_lookup := by
    rintro w e s m m' hRuns ⟨_, hHolds⟩ x v hFound
    exact hI.admits_lookup hRuns hHolds hFound
  reserved := by
    rintro w e s m m' _ ⟨hStore, _⟩ x
    simp [toCorrespondence, hStore]
  defined := by
    rintro w e s name value x v m m' hRuns hForm hName hKeyword hAdmits ⟨hStore, hHolds⟩ hFree
    obtain ⟨w', hStage, hDefined⟩ := hI.defined hRuns hForm hName hKeyword hAdmits hHolds hFree
    exact ⟨w', hStage, by simp [toCorrespondence, Machine.defined, hStore], hDefined⟩
  minted := by
    rintro w e s params forms formals m m' hRuns hForm hForms hFormals ⟨hStore, hHolds⟩
    obtain ⟨w', hStage, hMinted, hAdmits⟩ := hI.minted hRuns hForm hForms hFormals hHolds
    refine ⟨by simp [toCorrespondence, hStore], w', hStage, ⟨?_, hMinted⟩, hAdmits⟩
    simp [Machine.minted, hStore]
  called := by
    rintro w proc c body rest args m m' d d' hProc hHead hTail hArgs hArity ⟨hStore, hHolds⟩
    obtain ⟨w', hStage, hRuns, hCalled⟩ := hI.called d hProc hHead hTail hArgs hArity hHolds
    refine ⟨by simp [toCorrespondence, hStore], w', hStage, hRuns, ?_, hCalled⟩
    simp [toCorrespondence, Machine.called, hStore]

theorem Ends.of_results {w : Stage} {x y : Result EvalError Machine Expr}
    (h : I.toCorrespondence.Results w I.toCorrespondence.Same x y) : I.Ends w x := by
  cases h with
  | ok hStage hMachine hSame => exact .ok hStage hMachine.2 hSame.2
  | error hStage hMachine _ => exact .error hStage hMachine.2
  | excused hExcused => exact hExcused.elim

/-- The invariant holds at the end of a run, failed or not. -/
theorem Ends.exists_holds {ε : Type} {w : Stage} {x : Result ε Machine Expr} (h : I.Ends w x) :
    ∃ w' ≥ w, I.holds w' (Outcome.machine x) := by
  cases h with
  | ok hStage hHolds _ => exact ⟨_, hStage, hHolds⟩
  | error hStage hHolds => exact ⟨_, hStage, hHolds⟩

/-- What holds at the end from a later stage on holds from every earlier one on. -/
theorem Ends.later {ε : Type} {w w' : Stage} (hStage : w ≤ w') {x : Result ε Machine Expr}
    (h : I.Ends w' x) : I.Ends w x := by
  cases h with
  | ok hLater hHolds hAdmits => exact .ok (hStage.trans hLater) hHolds hAdmits
  | error hLater hHolds => exact .error (hStage.trans hLater) hHolds

/-- The levels below any ceiling keep the invariant. This is where the induction
of the correspondence is used. -/
theorem Preserved.levels (hI : I.Preserved) (c : Ceiling) (n : Nat) (d : Int) :
    I.toCorrespondence.Levels ⟨d, PlotLang.evalWithin c n⟩ ⟨d, PlotLang.evalWithin c n⟩ := by
  have hExceed (w : Stage) :
      I.toCorrespondence.Agree w I.toCorrespondence.Same (exceed c) (exceed c) := by
    rintro m m' ⟨hStore, hHolds⟩
    exact .error (le_refl w) ⟨hStore, hI.logged hHolds rfl⟩ rfl
  exact fun w e s hRuns => hI.toLawful.evalWithin hExceed n hRuns

/-- Whole evaluations keep what the single operations keep. -/
theorem Preserved.evalWithin (hI : I.Preserved) (c : Ceiling) (n : Nat) {w : Stage} {e : Expr}
    {s : ScopeId} {m : Machine} (hRuns : I.runs w e s) (hHolds : I.holds w m) :
    I.Ends w (PlotLang.evalWithin c n e s m) :=
  .of_results (hI.levels c n 0 w e s hRuns m m ⟨rfl, hHolds⟩)

/-- A call keeps the invariant as evaluation does. -/
theorem Preserved.apply (hI : I.Preserved) (c : Ceiling) (n : Nat) (d : Int) {w : Stage}
    {proc : Expr} {args : List Expr} {m : Machine} (hProc : I.admits w proc)
    (hArgs : ∀ a ∈ args, I.admits w a) (hHolds : I.holds w m) :
    I.Ends w (Level.apply ⟨d, PlotLang.evalWithin c n⟩ proc args m) :=
  .of_results (hI.toLawful.apply (hI.levels c n d) hProc hArgs m m ⟨rfl, hHolds⟩)

/-! Invariants out of invariants. -/

section Both
variable {Stage' : Type} [Preorder Stage'] {J : Invariant Stage'}

variable (I J) in
/-- Two invariants at once, each at a stage of its own. -/
def both : Invariant (Stage × Stage') where
  admits := fun w v => I.admits w.1 v ∧ J.admits w.2 v
  runs := fun w e s => I.runs w.1 e s ∧ J.runs w.2 e s
  holds := fun w m => I.holds w.1 m ∧ J.holds w.2 m

/-- Two invariants that are kept are kept together. -/
theorem Preserved.both (hI : I.Preserved) (hJ : J.Preserved) : (I.both J).Preserved where
  admits_mono := fun hStage hv => ⟨hI.admits_mono hStage.1 hv.1, hJ.admits_mono hStage.2 hv.2⟩
  admits_none := fun w => ⟨hI.admits_none w.1, hJ.admits_none w.2⟩
  admits_number := fun w x => ⟨hI.admits_number w.1 x, hJ.admits_number w.2 x⟩
  admits_list := fun hvs =>
    ⟨hI.admits_list fun v hv => (hvs v hv).1, hJ.admits_list fun v hv => (hvs v hv).2⟩
  admits_element := fun hv hList hc =>
    ⟨hI.admits_element hv.1 hList hc, hJ.admits_element hv.2 hList hc⟩
  admits_run := fun hArgs hRun =>
    ⟨hI.admits_run (fun a ha => (hArgs a ha).1) hRun,
      hJ.admits_run (fun a ha => (hArgs a ha).2) hRun⟩
  admits_withProperty := fun hName hText hValue hTarget hv =>
    ⟨hI.admits_withProperty hName.1 hText hValue.1 hTarget.1 hv,
      hJ.admits_withProperty hName.2 hText hValue.2 hTarget.2 hv⟩
  admits_property := fun hTarget hv =>
    ⟨hI.admits_property hTarget.1 hv, hJ.admits_property hTarget.2 hv⟩
  admits_plot := fun w name _ items hScale =>
    ⟨hI.admits_plot w.1 name items hScale, hJ.admits_plot w.2 name items hScale⟩
  runs_mono := fun hStage hRuns =>
    ⟨hI.runs_mono hStage.1 hRuns.1, hJ.runs_mono hStage.2 hRuns.2⟩
  runs_literal := fun hRuns hForm => ⟨hI.runs_literal hRuns.1 hForm, hJ.runs_literal hRuns.2 hForm⟩
  runs_special := fun hRuns hForm hKeyword ha =>
    ⟨hI.runs_special hRuns.1 hForm hKeyword ha, hJ.runs_special hRuns.2 hForm hKeyword ha⟩
  runs_call := fun hRuns hForm ha =>
    ⟨hI.runs_call hRuns.1 hForm ha, hJ.runs_call hRuns.2 hForm ha⟩
  logged := fun hHolds hr => ⟨hI.logged hHolds.1 hr, hJ.logged hHolds.2 hr⟩
  admits_lookup := fun hRuns hHolds hFound =>
    ⟨hI.admits_lookup hRuns.1 hHolds.1 hFound, hJ.admits_lookup hRuns.2 hHolds.2 hFound⟩
  defined := by
    intro w e s name value x v m hRuns hForm hName hKeyword hv hHolds hFree
    obtain ⟨w₁, h₁, hFirst⟩ := hI.defined hRuns.1 hForm hName hKeyword hv.1 hHolds.1 hFree
    obtain ⟨w₂, h₂, hSecond⟩ := hJ.defined hRuns.2 hForm hName hKeyword hv.2 hHolds.2 hFree
    exact ⟨(w₁, w₂), ⟨h₁, h₂⟩, hFirst, hSecond⟩
  minted := by
    intro w e s params forms formals m hRuns hForm hForms hFormals hHolds
    obtain ⟨w₁, h₁, hFirst, hValue⟩ := hI.minted hRuns.1 hForm hForms hFormals hHolds.1
    obtain ⟨w₂, h₂, hSecond, hValue'⟩ := hJ.minted hRuns.2 hForm hForms hFormals hHolds.2
    exact ⟨(w₁, w₂), ⟨h₁, h₂⟩, ⟨hFirst, hSecond⟩, hValue, hValue'⟩
  called := by
    intro w proc c body rest args m d hProc hHead hTail hArgs hArity hHolds
    obtain ⟨w₁, h₁, hRuns, hFirst⟩ :=
      hI.called d hProc.1 hHead hTail (fun a ha => (hArgs a ha).1) hArity hHolds.1
    obtain ⟨w₂, h₂, hRuns', hSecond⟩ :=
      hJ.called d hProc.2 hHead hTail (fun a ha => (hArgs a ha).2) hArity hHolds.2
    exact ⟨(w₁, w₂), ⟨h₁, h₂⟩, ⟨hRuns, hRuns'⟩, hFirst, hSecond⟩

end Both

section Along
variable {P : Machine → Prop}

variable (I P) in
/-- The invariant and a property of the machine besides. -/
def along : Invariant Stage where
  admits := I.admits
  runs := I.runs
  holds := fun w m => I.holds w m ∧ P m

variable (I P) in
/-- The operations that change the machine keep the property, where the invariant
holds of what they start from. -/
structure Keeps : Prop where
  logged : ∀ {w m r}, I.holds w m → P m → r.isCall = false → P (m.logged r)
  defined : ∀ {w e s x v m}, I.runs w e s → x.isKeyword = false → I.holds w m → P m →
    m.store.isReserved s x = false → P (m.defined s x v)
  minted : ∀ {w m}, I.holds w m → P m → P m.minted
  called : ∀ {w proc c args m} (d : Int), I.admits w proc → proc.head = .lambda c →
    args.length = c.formals.length → I.holds w m → P m → P (m.called d c args)

/-- A property that is kept while the invariant holds can be carried along with it. -/
theorem Preserved.along (hI : I.Preserved) (hP : I.Keeps P) : (I.along P).Preserved where
  toValueLaws := hI.toValueLaws
  toFormLaws := hI.toFormLaws
  logged := fun hHolds hr => ⟨hI.logged hHolds.1 hr, hP.logged hHolds.1 hHolds.2 hr⟩
  admits_lookup := fun hRuns hHolds hFound => hI.admits_lookup hRuns hHolds.1 hFound
  defined := by
    intro w e s name value x v m hRuns hForm hName hKeyword hv hHolds hFree
    obtain ⟨w', hStage, hDefined⟩ := hI.defined hRuns hForm hName hKeyword hv hHolds.1 hFree
    exact ⟨w', hStage, hDefined, hP.defined hRuns hKeyword hHolds.1 hHolds.2 hFree⟩
  minted := by
    intro w e s params forms formals m hRuns hForm hForms hFormals hHolds
    obtain ⟨w', hStage, hMinted, hValue⟩ := hI.minted hRuns hForm hForms hFormals hHolds.1
    exact ⟨w', hStage, ⟨hMinted, hP.minted hHolds.1 hHolds.2⟩, hValue⟩
  called := by
    intro w proc c body rest args m d hProc hHead hTail hArgs hArity hHolds
    obtain ⟨w', hStage, hRuns, hCalled⟩ := hI.called d hProc hHead hTail hArgs hArity hHolds.1
    exact ⟨w', hStage, hRuns, hCalled, hP.called d hProc hHead hArity hHolds.1 hHolds.2⟩

end Along

end Invariant
end PlotLang
