import PlotLang.Proofs.Application
import PlotLang.Proofs.Fault
import PlotLang.Proofs.Plot.Sampling
import PlotLang.Proofs.Reading
import PlotLang.Proofs.Session

/-! How evaluation can fail. Besides the errors of the language only the number
faults of procedures come out of it. The rules take values apart without looking
twice, and errors say what they mean, because values are well-formed: what is
called as a procedure has its body, and what is refused as one is none. There is
one lemma for each rule; the induction is on the levels left below the ceiling.

The stack of the host is taken as unlimited. Evaluation counts its levels and gives
up at its ceiling, but the reader does not count open forms, so a host with a
bounded stack can also give up on a text that nests too deep. -/
namespace PlotLang

open EStateM (Result)
open Promise (meets_pure meets_throw meets_mapM meets_foldlM_last)

/-- A number fault of a call with well-formed arguments. -/
def NumberFault.Arises (fault : NumberFault) : Prop :=
  ∃ (b : Builtin) (args : List Expr),
    (∀ a ∈ args, a.WellFormed) ∧ b.run args = .error (.number fault)

/-- What every part of an evaluation promises. -/
def Promise.sound : Promise EvalError Machine where
  keeps := fun m => m.store.WellFormed
  raises := EvalError.Justified NumberFault.Arises

section Operations
variable {α : Type} {post : α → Prop}

theorem meets_ofExcept {x : Except EvalError α} (hx : Raises Promise.sound.raises x)
    (h : ∀ a, x = .ok a → post a) : Promise.sound.Meets post (EvalM.ofExcept x) := by
  cases x with
  | ok a => exact meets_pure (h a rfl)
  | error e => exact meets_throw (hx e rfl)

theorem meets_log (r : LogRecord) : Promise.sound.Meets (fun _ => True) (EvalM.log r) :=
  fun _ hStore => .ok hStore trivial

/-- What is found in a well-formed store is well-formed; what is not found is a
documented error. -/
theorem meets_lookup (s : ScopeId) (x : Symbol) :
    Promise.sound.Meets Expr.WellFormed (EvalM.lookup s x) := by
  intro m hStore
  rw [EvalM.lookup_apply]
  cases hFound : m.store.lookup? s x with
  | none => exact .error trivial
  | some v =>
      obtain ⟨i, hi⟩ := Store.exists_mem_of_lookup? hFound
      exact .ok hStore (hStore i (x, v) hi)

/-- A definition is refused for a builtin name only, which is documented. -/
theorem meets_define (s : ScopeId) (x : Symbol) {v : Expr} (hv : v.WellFormed) :
    Promise.sound.Meets (fun _ => True) (EvalM.define s x v) := by
  intro m hStore
  rw [EvalM.define_apply]
  split
  · exact .error trivial
  · exact .ok (hStore.bind s x hv) trivial

/-! Checks of values end in a mismatch or in nothing. -/

variable {raised : NumberFault → Prop}

/-- A parameter is refused as what it is: no symbol, a keyword or a repetition. -/
theorem addFormal_raises (formals : List Symbol) (c : Expr) :
    Raises (EvalError.Justified raised) (addFormal formals c) := by
  unfold addFormal
  split
  · exact raises_error trivial
  · exact raises_ite (raises_error trivial) (raises_ite (raises_error trivial) (raises_ok _))

/-- The parameters in front do not matter for why one is refused. -/
theorem parseFormals_raises (params : Expr) :
    Raises (EvalError.Justified raised) (parseFormals params) := by
  unfold parseFormals
  split
  · exact raises_ok _
  · exact raises_ok _
  · exact raises_foldlM addFormal_raises _ _

/-- A property is refused by the check of its key, or because the target is no
plot object. -/
theorem withProperty_raises (key : String) (value target : Expr) :
    Raises (EvalError.Justified raised) (withProperty key value target) := by
  refine raises_ite ?_ (raises_error trivial)
  split
  · exact raises_ok _
  · exact raises_error trivial

/-- Data that are no pair are refused as what they are. -/
theorem plotPoint_raises (entry : Expr) : Raises (EvalError.Justified raised) (plotPoint entry) := by
  unfold plotPoint
  split
  · exact raises_ok _
  · exact raises_error trivial

theorem curveBounds_raises (bounds : Expr) :
    Raises (EvalError.Justified raised) (curveBounds bounds) :=
  (plotPoint_raises bounds).bind fun _ _ => raises_ite (raises_ok _) (raises_error trivial)

theorem labelText_raises (key : Plot.OptionKey) (value : Expr) :
    Raises (EvalError.Justified raised) (Plot.Options.labelText key value) := by
  unfold Plot.Options.labelText
  split
  · exact raises_ok _
  · exact raises_error trivial

theorem scaleOf_raises (value : Expr) :
    Raises (EvalError.Justified raised) (Plot.Options.scaleOf value) := by
  unfold Plot.Options.scaleOf
  split
  · exact raises_ite (raises_ok _) (raises_error trivial)
  · exact raises_error trivial

/-- An entry is taken apart only after it was seen to be a pair. -/
theorem addEntry_raises (o : Plot.Options) (entry : Expr) :
    Raises (EvalError.Justified raised) (o.addEntry entry) := by
  have hSet (key : Plot.OptionKey) (value : Expr) :
      Raises (EvalError.Justified raised) (o.set key value) := by
    cases key with
    | textScale => exact (scaleOf_raises value).bind fun _ _ => raises_ok _
    | title | abscissaLabel | ordinateLabel =>
        exact (labelText_raises _ value).bind fun _ _ => raises_ok _
  unfold Plot.Options.addEntry
  split
  · split
    · exact raises_error trivial
    · split
      · exact hSet _ _
      · exact raises_error trivial
  · exact raises_error trivial

theorem options_raises (e : Expr) :
    Raises (EvalError.Justified raised) (Plot.Options.ofExpr e) :=
  raises_ite (raises_foldlM addEntry_raises _ _) (raises_error trivial)

end Operations

/-! The rules, given that evaluation one level deeper is sound. -/

/-- Evaluation one level deeper is as promised. -/
def Level.Sound (lv : Level) : Prop :=
  ∀ e s, e.IsForm → Promise.sound.Meets Expr.WellFormed (lv.eval e s)

namespace Level.Sound
variable {lv : Level} (hlv : lv.Sound) {s : ScopeId} {args : List Expr}
include hlv

/-- The body of a procedure is there to be evaluated, and it is a form. -/
theorem applyClosure {proc : Expr} (hProc : proc.WellFormed) {c : Closure}
    (hHead : proc.head = .lambda c) {body : Expr} {rest : List Expr}
    (hTail : proc.tail = body :: rest) (hArgs : ∀ a ∈ args, a.WellFormed) :
    Promise.sound.Meets Expr.WellFormed (lv.applyClosure c body args) := by
  by_cases hArity : args.length = c.formals.length
  · intro m hStore
    obtain ⟨_, _, hBody, hCalled⟩ := Invariant.wellFormed_preserved.called (w := .always) lv.depth
      hProc hHead hTail hArgs hArity hStore
    rw [lv.applyClosure_apply body hArity]
    exact hlv body _ hBody _ hCalled
  · unfold Level.applyClosure
    rw [if_neg hArity]
    exact meets_throw hArity

/-- What is called is a procedure of the language with a body, a builtin, or
refused as neither. -/
theorem apply {proc : Expr} (hProc : proc.WellFormed) (hArgs : ∀ a ∈ args, a.WellFormed) :
    Promise.sound.Meets Expr.WellFormed (lv.apply proc args) := by
  have hRefused (h : proc.isCallable = false) :
      Promise.sound.Meets Expr.WellFormed (throw (.notCallable (.value proc)) : EvalM Expr) :=
    meets_throw h
  unfold Level.apply
  cases hHead : proc.head with
  | lambda c =>
      obtain ⟨⟨body, hTail, _⟩, _⟩ := hProc.closure hHead
      rw [hTail]
      exact hlv.applyClosure hProc hHead hTail hArgs
  | procedure b =>
      have hTail : proc.tail = [] := by
        cases hProc with
        | intro hDatum => exact hDatum (by rw [hHead]; rfl)
      rw [hTail]
      refine meets_ofExcept (fun e he => ?_) fun v hv => ?_
      · exact (b.run_raises args e he).mono fun fault hNumber _ => ⟨b, args, hArgs, hNumber ▸ he⟩
      · exact Invariant.wellFormed_preserved.admits_run (w := .always) hArgs hv
  | none | number x | complex z | symbol x | string t | list | discrete name =>
      exact hRefused (by simp [Expr.isCallable, hHead])

/-- Only what is callable comes out, so the call behind it cannot find anything else. -/
theorem evalProcedure (form : Keyword) {e : Expr} (he : e.IsForm) :
    Promise.sound.Meets Expr.WellFormed (lv.evalProcedure form e s) := by
  unfold Level.evalProcedure
  split
  · exact meets_throw trivial
  · refine (hlv e s he).bind fun proc hProc => ?_
    split
    · exact meets_pure hProc
    · next hCallable => exact meets_throw (Bool.not_eq_true _ |>.mp hCallable)

/-- The name of a definition is checked before its value is evaluated. -/
theorem define (hArgs : ∀ a ∈ args, a.IsForm) :
    Promise.sound.Meets Expr.WellFormed (lv.define args s) := by
  match args with
  | [name, value] =>
      unfold Level.define
      dsimp only
      split
      · exact meets_throw trivial
      · split
        · exact meets_throw trivial
        · refine (hlv value s (hArgs value (by simp))).bind fun v hv => ?_
          exact (meets_define s _ hv).bind fun _ _ => meets_pure hv
  | [] | [_] | _ :: _ :: _ :: _ => exact meets_throw trivial

/-- A sequence of nothing is refused, so there is a last value. -/
theorem sequence (hArgs : ∀ a ∈ args, a.IsForm) :
    Promise.sound.Meets Expr.WellFormed (lv.sequence args s) := by
  unfold Level.sequence
  split
  · exact meets_throw trivial
  · exact meets_foldlM_last args (fun e he => hlv e s (hArgs e he)) (.leaf rfl)

omit hlv in
/-- A procedure that is made has a body and distinct parameters. -/
theorem lambda (hArgs : ∀ a ∈ args, a.IsForm) :
    Promise.sound.Meets Expr.WellFormed (Level.lambda args s) := by
  match args with
  | params :: form :: forms =>
      have hFormals : Promise.sound.Meets FormalsValid (EvalM.ofExcept (parseFormals params)) :=
        meets_ofExcept (parseFormals_raises params) fun _ h => parseFormals_valid h
      refine hFormals.bind fun formals hValid => ?_
      intro m hStore
      exact .ok hStore (.lambda (.bodyOf fun e he => hArgs e (List.mem_cons_of_mem _ he)) hValid)
  | [] | [_] => exact meets_throw trivial

theorem applyForm (hArgs : ∀ a ∈ args, a.IsForm) :
    Promise.sound.Meets Expr.WellFormed (lv.applyForm args s) := by
  match args with
  | [procExpr, argsExpr] =>
      refine (hlv.evalProcedure .apply (hArgs procExpr (by simp))).bind fun proc hProc => ?_
      refine (hlv argsExpr s (hArgs argsExpr (by simp))).bind fun items hItems => ?_
      split
      · next hList => exact hlv.apply hProc fun a ha => hItems.child (.inl hList) ha
      · exact meets_throw trivial
  | [] | [_] | _ :: _ :: _ :: _ => exact meets_throw trivial

theorem mapForm (hArgs : ∀ a ∈ args, a.IsForm) :
    Promise.sound.Meets Expr.WellFormed (lv.mapForm args s) := by
  match args with
  | [procExpr, listExpr] =>
      refine (hlv.evalProcedure .map (hArgs procExpr (by simp))).bind fun proc hProc => ?_
      refine (hlv listExpr s (hArgs listExpr (by simp))).bind fun items hItems => ?_
      split
      · next hList =>
          refine (meets_mapM _ fun item hItem => ?_).bind fun values hValues =>
            meets_pure (.list (forall_mem_of_forall₂ hValues))
          exact hlv.apply hProc (by simpa using hItems.child (.inl hList) hItem)
      · exact meets_throw trivial
  | [] | [_] | _ :: _ :: _ :: _ => exact meets_throw trivial

/-- A head that is no symbol is refused as what it is. -/
theorem call (head : Atom) (hArgs : ∀ a ∈ args, a.IsForm) :
    Promise.sound.Meets Expr.WellFormed (lv.call head args s) := by
  cases head with
  | symbol f =>
      refine (meets_lookup s f).bind fun proc hProc => ?_
      refine (meets_mapM args fun a ha => hlv a s (hArgs a ha)).bind fun values hValues => ?_
      exact hlv.apply hProc (forall_mem_of_forall₂ hValues)
  | none | number x | complex z | string t | procedure b | list | lambda c | discrete name =>
      exact meets_throw trivial

/-- A key that is no text is refused. -/
theorem evalKey {e : Expr} (he : e.IsForm) :
    Promise.sound.Meets (fun _ => True) (lv.evalKey e s) := by
  refine (hlv e s he).bind fun key _ => ?_
  split
  · exact meets_pure trivial
  · exact meets_throw trivial

theorem setProperty (hArgs : ∀ a ∈ args, a.IsForm) :
    Promise.sound.Meets Expr.WellFormed (lv.setProperty args s) := by
  match args with
  | [keyExpr, valueExpr, targetExpr] =>
      refine (hlv.evalKey (hArgs keyExpr (by simp))).bind fun key _ => ?_
      refine (hlv valueExpr s (hArgs valueExpr (by simp))).bind fun value hValue => ?_
      refine (hlv targetExpr s (hArgs targetExpr (by simp))).bind fun target hTarget => ?_
      exact meets_ofExcept (withProperty_raises key value target) fun v hv =>
        Expr.wellFormed_constructive.withProperty (w := Timeless.always) hValue hTarget hv
  | [] | [_] | [_, _] | _ :: _ :: _ :: _ :: _ => exact meets_throw trivial

theorem getProperty (hArgs : ∀ a ∈ args, a.IsForm) :
    Promise.sound.Meets Expr.WellFormed (lv.getProperty args s) := by
  match args with
  | [keyExpr, targetExpr] =>
      refine (hlv.evalKey (hArgs keyExpr (by simp))).bind fun key _ => ?_
      refine (hlv targetExpr s (hArgs targetExpr (by simp))).bind fun target hTarget => ?_
      refine meets_pure ?_
      cases hFound : target.property? key with
      | none => exact .leaf rfl
      | some v => exact hTarget.property hFound
  | [] | [_] | _ :: _ :: _ :: _ => exact meets_throw trivial

/-- Options are read from a list; everything else is refused. -/
theorem evalOptions {options : Option Expr} (hOptions : ∀ e ∈ options, e.IsForm) :
    Promise.sound.Meets (fun _ => True) (lv.evalOptions options s) := by
  cases options with
  | none => exact meets_pure trivial
  | some e =>
      refine (hlv e s (hOptions e rfl)).bind fun given _ => ?_
      exact meets_ofExcept (options_raises given) fun _ _ => trivial

/-- The bounds of the data exist, because there is at least one entry. -/
theorem plotData {dataExpr : Expr} {options : Option Expr} (hData : dataExpr.IsForm)
    (hOptions : ∀ e ∈ options, e.IsForm) :
    Promise.sound.Meets Expr.WellFormed (lv.plotData dataExpr options s) := by
  have hEntries : Promise.sound.Meets (fun _ => True) (lv.evalData dataExpr s) := by
    refine (hlv dataExpr s hData).bind fun data _ => ?_
    split
    · exact meets_pure trivial
    · exact meets_throw trivial
  refine hEntries.bind fun entries _ => (hlv.evalOptions hOptions).bind fun given _ => ?_
  refine (meets_ofExcept (plotPoint_raises entries.1) fun _ _ => trivial).bind fun first _ => ?_
  refine (meets_ofExcept (raises_mapM plotPoint_raises entries.2) fun _ _ => trivial).bind
    fun rest _ => (meets_log _).bind fun _ _ => meets_pure ?_
  exact Expr.wellFormed_constructive.laidOut (w := Timeless.always) _ _ _

theorem discretePlot (hArgs : ∀ a ∈ args, a.IsForm) :
    Promise.sound.Meets Expr.WellFormed (lv.discretePlot args s) := by
  match args with
  | [data] => exact hlv.plotData (hArgs data (by simp)) (by simp)
  | [data, options] =>
      exact hlv.plotData (hArgs data (by simp)) (by simpa using hArgs options (by simp))
  | [] | _ :: _ :: _ :: _ => exact meets_throw trivial

/-- A sample that is no number is refused. -/
theorem sampleProcedure {proc : Expr} (hProc : proc.WellFormed) (x : Float) :
    Promise.sound.Meets (fun _ => True) (lv.sampleProcedure proc x) := by
  have hNumber : (Expr.number x).WellFormed := .leaf rfl
  refine (hlv.apply hProc (by simpa using hNumber)).bind fun y _ => ?_
  split
  · exact meets_pure trivial
  · exact meets_throw trivial

/-- The bounds are in order when the curve is sampled. -/
theorem plotCurve {procExpr boundsExpr : Expr} {options : Option Expr}
    (hProcExpr : procExpr.IsForm) (hBounds : boundsExpr.IsForm)
    (hOptions : ∀ e ∈ options, e.IsForm) :
    Promise.sound.Meets Expr.WellFormed (lv.plotCurve procExpr boundsExpr options s) := by
  refine (hlv.evalProcedure .continuousPlot hProcExpr).bind fun proc hProc => ?_
  refine (hlv boundsExpr s hBounds).bind fun bounds _ => ?_
  refine (meets_ofExcept (curveBounds_raises bounds) fun _ _ => trivial).bind fun ends _ => ?_
  refine (hlv.evalOptions hOptions).bind fun given _ => ?_
  refine (Plot.Curve.sample_meets (fun x (_ : True) => hlv.sampleProcedure hProc x)
    (fun _ _ _ _ => trivial) Plot.bends trivial fun _ _ => trivial).bind fun samples _ =>
      (meets_log _).bind fun _ _ => meets_pure ?_
  exact Expr.wellFormed_constructive.laidOut (w := Timeless.always) _ _ _

theorem continuousPlot (hArgs : ∀ a ∈ args, a.IsForm) :
    Promise.sound.Meets Expr.WellFormed (lv.continuousPlot args s) := by
  match args with
  | [proc, bounds] => exact hlv.plotCurve (hArgs proc (by simp)) (hArgs bounds (by simp)) (by simp)
  | [proc, bounds, options] =>
      exact hlv.plotCurve (hArgs proc (by simp)) (hArgs bounds (by simp))
        (by simpa using hArgs options (by simp))
  | [] | [_] | _ :: _ :: _ :: _ :: _ => exact meets_throw trivial

/-- One level of evaluation keeps the promise if the next level does. -/
theorem step {e : Expr} (he : e.IsForm) :
    Promise.sound.Meets Expr.WellFormed (lv.step e s) := by
  unfold Level.step
  cases hForm : e.form with
  | literal => exact meets_pure (he.wellFormed hForm)
  | «variable» x => exact meets_lookup s x
  | call head args =>
      obtain ⟨hTail, _⟩ := Expr.of_form_call hForm
      exact hlv.call head fun a ha => he.child (hTail ▸ ha)
  | special k args =>
      obtain ⟨hTail, _⟩ := Expr.of_form_special hForm
      have hArgs : ∀ a ∈ args, a.IsForm := fun a ha => he.child (hTail ▸ ha)
      cases k with
      | define => exact hlv.define hArgs
      | sequence => exact hlv.sequence hArgs
      | lambda => exact Level.Sound.lambda hArgs
      | apply => exact hlv.applyForm hArgs
      | map => exact hlv.mapForm hArgs
      | setProperty => exact hlv.setProperty hArgs
      | getProperty => exact hlv.getProperty hArgs
      | discretePlot => exact hlv.discretePlot hArgs
      | continuousPlot => exact hlv.continuousPlot hArgs

end Level.Sound

/-- Evaluation of a form is sound at any depth. -/
theorem evalWithin_meets (c : Ceiling) (n : Nat) {e : Expr} (he : e.IsForm) (s : ScopeId) :
    Promise.sound.Meets Expr.WellFormed (evalWithin c n e s) := by
  induction n generalizing e s with
  | zero => exact (meets_log _).bind fun _ _ => meets_throw trivial
  | succ n ih =>
      have hDeeper : Level.Sound ⟨c.levels - n, evalWithin c n⟩ := fun e s he => ih he s
      exact hDeeper.step he

/-! Whole texts. -/

/-- Why a text may have no value: it cannot be read, and not for the name of a
symbol; or an error of one of the kinds of the language, with the cause that it
tells; or a number fault of a procedure that is known to have faults of its
class. -/
inductive Failure.Documented : Failure → Prop where
  | reading {e : SyntaxError} (hSymbols : ∀ name, e ≠ .invalidSymbol name) :
      Documented (.reading e)
  | language {e : EvalError} (hKind : e.kind?.isSome = true)
      (hCause : e.Justified fun _ => False) : Documented (.evaluation e)
  | arithmetic {b : Builtin} {args : List Expr} {fault : NumberFault}
      (hArgs : ∀ a ∈ args, a.WellFormed) (hCall : b.run args = .error (.number fault))
      (hClass : fault.faultClass ∈ b.faultClasses) : Documented (.evaluation (.number fault))

/-- A justified error is one of the documented ones. -/
theorem Failure.Documented.of_justified {e : EvalError} (he : e.Justified NumberFault.Arises) :
    Documented (.evaluation e) := by
  have hCause (h : e.kind?.isSome = true) : e.Justified fun _ => False :=
    he.mono fun fault hNumber _ => by simp [hNumber, EvalError.kind?] at h
  cases e with
  | number fault =>
      obtain ⟨b, args, hArgs, hCall⟩ := he
      exact .arithmetic hArgs hCall (Builtin.faultClass_mem (Builtin.mem_faults_of_run hCall))
  | _ => exact .language rfl (hCause rfl)

def Outcome.fault? : Result EvalError Machine Expr → Option NumberFault
  | .error (.number fault) _ => some fault
  | _ => none

theorem Outcome.exists_of_fault? {result : Result EvalError Machine Expr} {fault : NumberFault}
    (h : fault? result = some fault) : ∃ m, result = .error (.number fault) m := by
  unfold fault? at h
  split at h
  · cases h
    exact ⟨_, rfl⟩
  · cases h

namespace Session

/-- The builtin names are bound to atoms, and every step after that keeps the
store well-formed. -/
theorem Reached.store_wellFormed {session : Session} (h : session.Reached) :
    session.machine.store.WellFormed := by
  have hInitial : Store.initial.WellFormed := by
    intro i p hp
    obtain ⟨a, ha, hValue⟩ := (Store.initial_spec.2.2 i).2 p hp
    exact hValue ▸ .leaf ha
  obtain ⟨_, _, hStore⟩ : ∃ w ≥ Timeless.always, Invariant.wellFormed.holds w session.machine :=
    Invariant.wellFormed_preserved.reached (fun _ => hInitial) (fun _ _ _ he => he) h
  exact hStore

/-- The fault behind the forms of a text is never the name of a symbol. -/
theorem readForms_documented {source : String} {e : SyntaxError}
    (h : (TokenStream.ofSource source).readForms.2 = some e) : Failure.Documented (.reading e) := by
  refine .reading fun name hName => readSource_ne_invalidSymbol source name ?_
  rw [readSource_eq, h, hName]

/-- In every session that can come up, whatever its limit, every text has a
well-formed value or fails in a documented way. Reading it takes as much stack as
its forms nest. -/
theorem Reached.eval_documented {session : Session} (h : session.Reached) (limit : Int)
    (source : String) :
    (∃ v, ({ session with limit }.eval source).1 = .ok v ∧ v.WellFormed) ∨
      ∃ failure, ({ session with limit }.eval source).1 = .error failure ∧ failure.Documented := by
  have hForms : Promise.sound.Meets Expr.WellFormed (evalForms limit Store.root
      (TokenStream.ofSource source).readForms.1 Expr.none) :=
    meets_foldlM_last _ (fun e he => evalWithin_meets _ _
      (TokenStream.isForm_of_readForms _ e he) _) (.leaf rfl)
  have hResult := hForms session.machine h.store_wellFormed
  rw [eval_eq]
  simp only
  generalize evalForms limit Store.root _ Expr.none session.machine = result at hResult ⊢
  cases hResult with
  | error hRaises => exact .inr ⟨_, rfl, .of_justified hRaises⟩
  | @ok v m hKeeps hValue =>
      cases hFault : (TokenStream.ofSource source).readForms.2 with
      | none => exact .inl ⟨v, rfl, hValue⟩
      | some e => exact .inr ⟨.reading e, rfl, readForms_documented hFault⟩

/-- The angle of a number just off the real axis is too small for a number. -/
theorem eval_vanished_angle :
    ((Session.new 200).eval "(arg (+ 1e300 (* 1e-300 I)))").1 =
      .error (.evaluation (.number .vanishedAngle)) := by
  let product := Expr.call Builtin.mul.symbol [.number 1e-300, .symbol Constant.i.symbol]
  let form := Expr.call Builtin.arg.symbol [.call Builtin.add.symbol [.number 1e300, product]]
  have hRead : readSource "(arg (+ 1e300 (* 1e-300 I)))" = .ok [form] := by
    let δs : List Derivation := [.list (.word "arg") [.list (.word "+") [.atom (.word "1e300"),
      .list (.word "*") [.atom (.word "1e-300"), .atom (.word "I")]]]]
    have hDerives : Derives "(arg (+ 1e300 (* 1e-300 I)))" δs := by decide +kernel
    exact readSource_eq_ok_iff.mpr ⟨δs, hDerives, rfl⟩
  have hFault : Outcome.fault? (evalForms 200 Store.root [form] Expr.none
      (Session.new 200).machine) = some .vanishedAngle := by decide +kernel
  obtain ⟨m, hError⟩ := Outcome.exists_of_fault? hFault
  rw [eval_of_readSource hRead]
  show (concluded _ (Outcome.concluded none (evalForms 200 Store.root [form] Expr.none _))).1 = _
  rw [hError]
  rfl

/-- A text that fails in a number fault of a procedure. -/
theorem eval_documented_angle :
    (Session.new 200).Reached ∧ Failure.Documented (.evaluation (.number .vanishedAngle)) := by
  have hReached : (Session.new 200).Reached := .new 200
  refine ⟨hReached, ?_⟩
  rcases hReached.eval_documented 200 "(arg (+ 1e300 (* 1e-300 I)))" with
    ⟨v, hValue, _⟩ | ⟨failure, hFailure, hDocumented⟩
  · cases hValue.symm.trans eval_vanished_angle
  · cases hFailure.symm.trans eval_vanished_angle
    exact hDocumented

/-- The number fault of an angle is of no kind of the language, and no other
procedure that has number faults could have had it. -/
theorem angle_fault_escapes :
    ((Session.new 200).eval "(arg (+ 1e300 (* 1e-300 I)))").1 =
        .error (.evaluation (.number .vanishedAngle)) ∧
      (EvalError.number .vanishedAngle).kind? = none ∧
      ∀ b ∈ [Builtin.sin, .cos, .tan, .range, .mag, .pow], ∀ args,
        b.run args ≠ .error (.number .vanishedAngle) := by
  have hOthers : ∀ b ∈ [Builtin.sin, .cos, .tan, .range, .mag, .pow],
      NumberFault.vanishedAngle ∉ b.faults := by decide
  refine ⟨eval_vanished_angle, rfl, fun b hb args hCall => ?_⟩
  exact hOthers b hb (Builtin.mem_faults_of_run hCall)

end Session
end PlotLang
