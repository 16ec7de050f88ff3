import PlotLang.Proofs.Correspondence.Basic
import PlotLang.Proofs.Plot.Options

/-! Every rule of the language respects every lawful correspondence, and so does
evaluation to any depth. There is one lemma for each rule; the induction is on
the levels left below the ceiling. -/
namespace PlotLang.Correspondence
variable {Stage : Type} [Preorder Stage] {C : Correspondence Stage} {lv lv' : Level} {w : Stage}
  {s : ScopeId}

def SameAll (C : Correspondence Stage) (w : Stage) (vs vs' : List Expr) : Prop :=
  vs' = vs.map (Expr.rename C.names) ∧ ∀ v ∈ vs, C.admits w v

theorem sameAll_of_forall₂ {vs vs' : List Expr} (h : List.Forall₂ (C.Same w) vs vs') :
    C.SameAll w vs vs' := by
  induction h with
  | nil => exact ⟨rfl, by simp⟩
  | cons hHead _ ih =>
      obtain ⟨rfl, hAdmits⟩ := hHead
      obtain ⟨rfl, hRest⟩ := ih
      exact ⟨rfl, List.forall_mem_cons.mpr ⟨hAdmits, hRest⟩⟩

/-- Every element is traversed with its own renamed copy. -/
theorem forall₂_rename {P : Expr → Prop} {es : List Expr} (h : ∀ e ∈ es, P e) :
    List.Forall₂ (fun e e' => e' = e.rename C.names ∧ P e) es (es.map (Expr.rename C.names)) := by
  rw [List.forall₂_map_right_iff, List.forall₂_same]
  exact fun e he => ⟨rfl, h e he⟩

/-! Sampling a curve calls the function at places that depend only on its
values so far, so two functions that agree give the same samples. -/

section Sampling
open Plot Plot.Curve
variable {f g : Float → EvalM Float}

/-- A traversal with equal results in each place has equal results as a whole. -/
theorem agree_mapM_eq {α β : Type} {x y : α → EvalM β} (as : List α)
    (h : ∀ a, ∀ w' ≥ w, C.Agree w' (fun _ b b' => b = b') (x a) (y a)) :
    C.Agree w (fun _ bs bs' => bs = bs') (as.mapM x) (as.mapM y) := by
  have hEach : C.Agree w (fun _ => List.Forall₂ (fun b b' => b = b')) (as.mapM x) (as.mapM y) := by
    have hSelf : List.Forall₂ (fun a a' => a = a') as as := List.forall₂_same.mpr fun _ _ => rfl
    refine agree_mapM (fun _ _ _ h => h) hSelf ?_
    rintro a _ rfl w' h'
    exact h a w' h'
  refine hEach.weaken fun _ bs bs' hAll => ?_
  rwa [List.forall₂_eq_eq_eq] at hAll

theorem agree_sampleAt (h : ∀ x, ∀ w' ≥ w, C.Agree w' (fun _ y y' => y = y') (f x) (g x))
    (x : Float) : C.Agree w (fun _ p p' => p = p') (sampleAt f x) (sampleAt g x) := by
  refine (h x w le_rfl).bind fun w₁ _ y _ hy => ?_
  subst hy
  exact agree_pure rfl

/-- Refinement only calls the function, so functions that correspond are refined
alike. -/
theorem agree_refine (h : ∀ x, ∀ w' ≥ w, C.Agree w' (fun _ y y' => y = y') (f x) (g x))
    (bent : List Bool) (samples : Series Float) :
    C.Agree w (fun _ p p' => p = p') (refine f bent samples) (refine g bent samples) := by
  refine (agree_mapM_eq _ fun segment w' h' => ?_).bind fun w₁ _ parts _ hParts => ?_
  · obtain ⟨⟨p, q⟩, halve⟩ := segment
    cases halve with
    | false => exact agree_pure rfl
    | true =>
        refine (agree_sampleAt (fun x w₁ h₁ => h x w₁ (h'.trans h₁)) _).bind
          fun w₁ _ middle _ hMiddle => ?_
        subst hMiddle
        exact agree_pure rfl
  · subst hParts
    exact agree_pure rfl

/-- Which vertices are bent depends on the samples alone, so both curves are
refined in the same places. The induction is on the passes left. -/
theorem agree_refineWithin (bends : Series Float → List Bool) (n : Nat)
    (h : ∀ x, ∀ w' ≥ w, C.Agree w' (fun _ y y' => y = y') (f x) (g x)) (samples : Series Float) :
    C.Agree w (fun _ p p' => p = p') (refineWithin bends f n samples)
      (refineWithin bends g n samples) := by
  induction n generalizing w samples with
  | zero => exact agree_pure rfl
  | succ n ih =>
      unfold refineWithin
      dsimp only
      split
      · refine (agree_refine h (bends samples) samples).bind fun w₁ h₁ refined _ hRefined => ?_
        subst hRefined
        exact ih (fun x w' h' => h x w' (h₁.trans h')) refined
      · exact agree_pure rfl

/-- Two functions that correspond have the same samples. -/
theorem agree_sample (bends : Series Float → List Bool) (a b : Float)
    (h : ∀ x, ∀ w' ≥ w, C.Agree w' (fun _ y y' => y = y') (f x) (g x)) :
    C.Agree w (fun _ p p' => p = p') (sample bends f a b) (sample bends g a b) := by
  refine (agree_sampleAt h _).bind fun w₁ h₁ first _ hFirst => ?_
  subst hFirst
  refine (agree_mapM_eq _ fun x w' h' =>
    agree_sampleAt (fun y w₂ h₂ => h y w₂ ((h₁.trans h').trans h₂)) x).bind
      fun w₂ h₂ rest _ hRest => ?_
  subst hRest
  exact agree_refineWithin bends passes (fun x w' h' => h x w' ((h₁.trans h₂).trans h')) _

end Sampling

section Rules
variable (hC : C.Lawful) (hLevels : C.Levels lv lv')
include hC

/-- A name stands for corresponding values in corresponding scopes. -/
theorem Lawful.lookupVariable {e : Expr} (hRuns : C.runs w e s) (x : Symbol) :
    C.Agree w C.Same (EvalM.lookup s x)
      (EvalM.lookup (C.names.scope s) (C.names.symbol x)) := by
  intro m m' hMachine
  rw [EvalM.lookup_apply, EvalM.lookup_apply, hC.lookup hRuns hMachine x]
  cases hFound : m.store.lookup? s x with
  | none => exact .error le_rfl hMachine (hC.error_rename (.unbound x))
  | some v => exact .ok le_rfl hMachine ⟨rfl, hC.admits_lookup hRuns hMachine hFound⟩

include hLevels

/-- Arguments are evaluated from left to right on both sides. -/
theorem Lawful.evalAll {args : List Expr} (hArgs : ∀ a ∈ args, C.runs w a s) :
    C.Agree w C.SameAll (args.mapM fun a => lv.eval a s)
      ((args.map (Expr.rename C.names)).mapM fun a => lv'.eval a (C.names.scope s)) := by
  have hEach : C.Agree w (fun w' => List.Forall₂ (C.Same w')) (args.mapM fun a => lv.eval a s)
      ((args.map (Expr.rename C.names)).mapM fun a => lv'.eval a (C.names.scope s)) := by
    refine agree_mapM (fun h _ _ => hC.same_mono h) (forall₂_rename hArgs) ?_
    rintro a _ ⟨rfl, ha⟩ w' h'
    exact hLevels w' a s (hC.runs_mono h' ha)
  exact hEach.weaken fun _ _ _ => sameAll_of_forall₂

/-- A call of a procedure of the language makes a scope on both sides, and the
bodies run in these. -/
theorem Lawful.applyClosure {proc : Expr} {c : Closure} {body : Expr} {rest args : List Expr}
    (hProc : C.admits w proc) (hHead : proc.head = .lambda c) (hTail : proc.tail = body :: rest)
    (hArgs : ∀ a ∈ args, C.admits w a) :
    C.Agree w C.Same (lv.applyClosure c body args)
      (lv'.applyClosure (c.rename C.names) (body.rename C.names)
        (args.map (Expr.rename C.names))) := by
  by_cases hArity : args.length = c.formals.length
  · intro m m' hMachine
    have hArity' : (args.map (Expr.rename C.names)).length = (c.rename C.names).formals.length := by
      simpa [Closure.rename] using hArity
    rw [lv.applyClosure_apply body hArity, lv'.applyClosure_apply _ hArity']
    obtain ⟨hAddress, w', hStage, hRuns, hCalled⟩ :=
      hC.called lv.depth lv'.depth hProc hHead hTail hArgs hArity hMachine
    rw [hAddress]
    exact (hLevels w' body _ hRuns _ _ hCalled).later hStage
  · have hArity' : ¬(args.map (Expr.rename C.names)).length = (c.rename C.names).formals.length := by
      simpa [Closure.rename] using hArity
    unfold Level.applyClosure
    rw [if_neg hArity, if_neg hArity', List.length_map]
    exact hC.agree_throw (.arity (.lambda c args.length))

/-- Calls respect the correspondence, whatever the procedure is. -/
theorem Lawful.apply {proc : Expr} {args : List Expr} (hProc : C.admits w proc)
    (hArgs : ∀ a ∈ args, C.admits w a) :
    C.Agree w C.Same (lv.apply proc args)
      (lv'.apply (proc.rename C.names) (args.map (Expr.rename C.names))) := by
  have hRefused : C.Agree w C.Same (throw (.notCallable (.value proc)) : EvalM Expr)
      (throw (.notCallable (.value (proc.rename C.names))) : EvalM Expr) :=
    hC.agree_throw (.notCallable (.value proc))
  have hHead := proc.head_rename C.names
  have hTail := proc.tail_rename C.names
  unfold Level.apply
  rw [hHead, hTail]
  cases hAtom : proc.head with
  | lambda c =>
      cases hChildren : proc.tail with
      | nil => exact hRefused
      | cons body rest =>
          exact hC.applyClosure hLevels hProc hAtom hChildren hArgs
  | procedure b =>
      cases hChildren : proc.tail with
      | nil =>
          exact hC.agree_ofExcept (b.run_rename C.names args)
            fun v hv => ⟨rfl, hC.admits_run hArgs hv⟩
      | cons body rest => exact hRefused
  | _ => exact hRefused

/-- What stands in the place of a procedure is callable on both sides or on neither. -/
theorem Lawful.evalProcedure {e : Expr} (form : Keyword) (hRuns : C.runs w e s) :
    C.Agree w C.Same (lv.evalProcedure form e s)
      (lv'.evalProcedure form (e.rename C.names) (C.names.scope s)) := by
  have hKeyword : (e.rename C.names).asSymbol?.bind Keyword.ofSymbol? =
      e.asSymbol?.bind Keyword.ofSymbol? := by
    cases h : e.asSymbol? <;> simp [h]
  unfold Level.evalProcedure
  rw [hKeyword]
  cases e.asSymbol?.bind Keyword.ofSymbol? with
  | some k => exact hC.agree_throw (.notCallable (.keyword k form))
  | none =>
      refine (hLevels w e s hRuns).bind fun w₁ _ proc _ hProc => ?_
      obtain ⟨rfl, hProc⟩ := hProc
      simp only [Expr.isCallable_rename]
      split
      · exact agree_pure ⟨rfl, hProc⟩
      · exact hC.agree_throw (.notCallable (.argument form proc))

theorem Lawful.sequence {args : List Expr} (hArgs : ∀ a ∈ args, C.runs w a s) :
    C.Agree w C.Same (lv.sequence args s)
      (lv'.sequence (args.map (Expr.rename C.names)) (C.names.scope s)) := by
  -- the value so far is dropped at every step, so only the last one counts
  have hFold : ∀ (args : List Expr) (w : Stage) (v v' : Expr), (∀ a ∈ args, C.runs w a s) →
      C.Same w v v' →
      C.Agree w C.Same (args.foldlM (fun _ e => lv.eval e s) v)
        ((args.map (Expr.rename C.names)).foldlM
          (fun _ e => lv'.eval e (C.names.scope s)) v') := by
    intro args
    induction args with
    | nil => exact fun w v v' _ hv => agree_pure hv
    | cons a args ih =>
        intro w v v' hArgs _
        rw [List.map_cons, List.foldlM_cons, List.foldlM_cons]
        refine (hLevels w a s (hArgs a List.mem_cons_self)).bind fun w₁ h₁ u u' hu => ?_
        exact ih w₁ u u' (fun b hb => hC.runs_mono h₁ (hArgs b (List.mem_cons_of_mem a hb))) hu
  unfold Level.sequence
  rw [List.isEmpty_map]
  split
  · exact hC.agree_throw (.malformed (.arguments .sequence))
  · exact hFold args w .none .none hArgs ⟨(Expr.rename_none C.names).symm, hC.admits_none w⟩

/-- A definition binds corresponding names, unless both sides refuse the name. -/
theorem Lawful.define {e : Expr} {args : List Expr} (hRuns : C.runs w e s)
    (hForm : e.form = .special .define args) :
    C.Agree w C.Same (lv.define args s)
      (lv'.define (args.map (Expr.rename C.names)) (C.names.scope s)) := by
  match args with
  | [name, value] =>
      simp only [Level.define, List.map_cons, List.map_nil, Expr.asSymbol?_rename]
      cases hName : name.asSymbol? with
      | none => exact hC.agree_throw (.malformed .definedNotSymbol)
      | some x =>
          simp only [Option.map_some, Renaming.isKeyword_symbol]
          cases hKeyword : x.isKeyword with
          | true => exact hC.agree_throw (.malformed (.redefinesKeyword x))
          | false =>
              have hValue : C.runs w value s :=
                hC.runs_special hRuns hForm (by decide) (by simp)
              refine (hLevels w value s hValue).bind fun w₁ h₁ v _ hv => ?_
              obtain ⟨rfl, hv⟩ := hv
              have hDefine : C.Agree w₁ (fun w' _ _ => w₁ ≤ w') (EvalM.define s x v)
                  (EvalM.define (C.names.scope s) (C.names.symbol x) (v.rename C.names)) := by
                intro m m' hMachine
                have hHere := hC.runs_mono h₁ hRuns
                rw [EvalM.define_apply, EvalM.define_apply, hC.reserved hHere hMachine x]
                cases hReserved : m.store.isReserved s x with
                | true =>
                    exact .error le_rfl hMachine (hC.error_rename (.malformed (.redefinesBuiltin x)))
                | false =>
                    obtain ⟨w₂, h₂, hDefined⟩ :=
                      hC.defined hHere hForm hName hKeyword hv hMachine hReserved
                    exact .ok h₂ hDefined h₂
              exact hDefine.bind fun w₂ h₂ _ _ _ => agree_pure ⟨rfl, hC.admits_mono h₂ hv⟩
  | [] | [_] | _ :: _ :: _ :: _ => exact hC.agree_throw (.malformed (.arguments .define))

omit hLevels in
/-- Both sides draw a fresh identity for the procedure they make. -/
theorem Lawful.lambda {e : Expr} {args : List Expr} (hRuns : C.runs w e s)
    (hForm : e.form = .special .lambda args) :
    C.Agree w C.Same (Level.lambda args s)
      (Level.lambda (args.map (Expr.rename C.names)) (C.names.scope s)) := by
  match args with
  | params :: form :: forms =>
      have hFormals : C.Agree w
          (fun _ fs fs' => fs' = fs.map C.names.symbol ∧ parseFormals params = .ok fs)
          (EvalM.ofExcept (parseFormals params))
          (EvalM.ofExcept (parseFormals (params.rename C.names))) :=
        hC.agree_ofExcept (parseFormals_rename C.names params) fun formals h => ⟨rfl, h⟩
      refine hFormals.bind fun w₁ h₁ formals _ h => ?_
      obtain ⟨rfl, hParsed⟩ := h
      intro m m' hMachine
      obtain ⟨hIdentity, w₂, h₂, hMinted, hAdmits⟩ :=
        hC.minted (hC.runs_mono h₁ hRuns) hForm (by simp) hParsed hMachine
      refine .ok h₂ hMinted ⟨?_, hAdmits⟩
      rw [Expr.rename_lambda, ← bodyOf_rename, hIdentity]
      rfl
  | [] | [_] => exact hC.agree_throw (.malformed (.arguments .lambda))

theorem Lawful.applyForm {args : List Expr} (hArgs : ∀ a ∈ args, C.runs w a s) :
    C.Agree w C.Same (lv.applyForm args s)
      (lv'.applyForm (args.map (Expr.rename C.names)) (C.names.scope s)) := by
  match args with
  | [procExpr, argsExpr] =>
      refine (hC.evalProcedure hLevels .apply (hArgs procExpr (by simp))).bind
        fun w₁ h₁ proc _ hProc => ?_
      obtain ⟨rfl, hProc⟩ := hProc
      refine (hLevels w₁ argsExpr s (hC.runs_mono h₁ (hArgs argsExpr (by simp)))).bind
        fun w₂ h₂ items _ hItems => ?_
      obtain ⟨rfl, hItems⟩ := hItems
      rw [Expr.isList_rename, Expr.tail_rename]
      cases hList : items.isList with
      | true =>
          exact hC.apply hLevels (hC.admits_mono h₂ hProc)
            fun a ha => hC.admits_element hItems hList ha
      | false => exact hC.agree_throw (.mismatch (.spreadNotList .apply))
  | [] | [_] | _ :: _ :: _ :: _ => exact hC.agree_throw (.malformed (.arguments .apply))

theorem Lawful.mapForm {args : List Expr} (hArgs : ∀ a ∈ args, C.runs w a s) :
    C.Agree w C.Same (lv.mapForm args s)
      (lv'.mapForm (args.map (Expr.rename C.names)) (C.names.scope s)) := by
  match args with
  | [procExpr, listExpr] =>
      refine (hC.evalProcedure hLevels .map (hArgs procExpr (by simp))).bind
        fun w₁ h₁ proc _ hProc => ?_
      obtain ⟨rfl, hProc⟩ := hProc
      refine (hLevels w₁ listExpr s (hC.runs_mono h₁ (hArgs listExpr (by simp)))).bind
        fun w₂ h₂ items _ hItems => ?_
      obtain ⟨rfl, hItems⟩ := hItems
      rw [Expr.isList_rename, Expr.tail_rename]
      cases hList : items.isList with
      | true =>
          have hEach : C.Agree w₂ (fun w' => List.Forall₂ (C.Same w'))
              (items.tail.mapM fun item => lv.apply proc [item])
              ((items.tail.map (Expr.rename C.names)).mapM
                fun item => lv'.apply (proc.rename C.names) [item]) := by
            refine agree_mapM (fun h _ _ => hC.same_mono h)
              (forall₂_rename fun a ha => hC.admits_element hItems hList ha) ?_
            rintro a _ ⟨rfl, ha⟩ w' h'
            refine hC.apply hLevels (hC.admits_mono (h₂.trans h') hProc) ?_
            simpa using hC.admits_mono h' ha
          refine hEach.bind fun w₃ _ values _ hValues => ?_
          obtain ⟨rfl, hAdmitted⟩ := sameAll_of_forall₂ hValues
          exact agree_pure ⟨(Expr.rename_list C.names values).symm, hC.admits_list hAdmitted⟩
      | false => exact hC.agree_throw (.mismatch (.spreadNotList .map))
  | [] | [_] | _ :: _ :: _ :: _ => exact hC.agree_throw (.malformed (.arguments .map))

/-- The procedure is looked up before the arguments are evaluated, on both sides. -/
theorem Lawful.call {e : Expr} {head : Atom} {args : List Expr} (hRuns : C.runs w e s)
    (hArgs : ∀ a ∈ args, C.runs w a s) :
    C.Agree w C.Same (lv.call head args s)
      (lv'.call (head.rename C.names) (args.map (Expr.rename C.names)) (C.names.scope s)) := by
  cases head with
  | symbol f =>
      refine (hC.lookupVariable hRuns f).bind fun w₁ h₁ proc _ hProc => ?_
      obtain ⟨rfl, hProc⟩ := hProc
      refine (hC.evalAll hLevels fun a ha => hC.runs_mono h₁ (hArgs a ha)).bind
        fun w₂ h₂ values _ hValues => ?_
      obtain ⟨rfl, hValues⟩ := hValues
      exact hC.apply hLevels (hC.admits_mono h₂ hProc) hValues
  | lambda c => exact hC.agree_throw (.notCallable (.head (.lambda c)))
  | none => exact hC.agree_throw (.notCallable (.head .none))
  | number x => exact hC.agree_throw (.notCallable (.head (.number x)))
  | complex z => exact hC.agree_throw (.notCallable (.head (.complex z)))
  | string text => exact hC.agree_throw (.notCallable (.head (.string text)))
  | procedure b => exact hC.agree_throw (.notCallable (.head (.procedure b)))
  | list => exact hC.agree_throw (.notCallable (.head .list))
  | discrete name => exact hC.agree_throw (.notCallable (.head (.discrete name)))

/-- Keys are texts, and no renaming touches those. -/
theorem Lawful.evalKey {e : Expr} (hRuns : C.runs w e s) :
    C.Agree w
      (fun w' key key' => key = key' ∧ ∃ name, C.admits w' name ∧ name.asString? = some key)
      (lv.evalKey e s) (lv'.evalKey (e.rename C.names) (C.names.scope s)) := by
  refine (hLevels w e s hRuns).bind fun w₁ _ name _ hName => ?_
  obtain ⟨rfl, hName⟩ := hName
  rw [Expr.asString?_rename]
  cases hText : name.asString? with
  | some text => exact agree_pure ⟨rfl, name, hName, hText⟩
  | none => exact hC.agree_throw (.mismatch .propertyKey)

theorem Lawful.setProperty {args : List Expr} (hArgs : ∀ a ∈ args, C.runs w a s) :
    C.Agree w C.Same (lv.setProperty args s)
      (lv'.setProperty (args.map (Expr.rename C.names)) (C.names.scope s)) := by
  match args with
  | [keyExpr, valueExpr, targetExpr] =>
      refine (hC.evalKey hLevels (hArgs keyExpr (by simp))).bind fun w₁ h₁ key _ hKey => ?_
      obtain ⟨rfl, name, hName, hText⟩ := hKey
      refine (hLevels w₁ valueExpr s (hC.runs_mono h₁ (hArgs valueExpr (by simp)))).bind
        fun w₂ h₂ value _ hValue => ?_
      obtain ⟨rfl, hValue⟩ := hValue
      have h₁₂ := h₁.trans h₂
      refine (hLevels w₂ targetExpr s (hC.runs_mono h₁₂ (hArgs targetExpr (by simp)))).bind
        fun w₃ h₃ target _ hTarget => ?_
      obtain ⟨rfl, hTarget⟩ := hTarget
      refine hC.agree_ofExcept (withProperty_rename C.names key value target) fun v hv => ?_
      exact ⟨rfl, hC.admits_withProperty (hC.admits_mono (h₂.trans h₃) hName) hText
        (hC.admits_mono h₃ hValue) hTarget hv⟩
  | [] | [_] | [_, _] | _ :: _ :: _ :: _ :: _ =>
      exact hC.agree_throw (.malformed (.arguments .setProperty))

theorem Lawful.getProperty {args : List Expr} (hArgs : ∀ a ∈ args, C.runs w a s) :
    C.Agree w C.Same (lv.getProperty args s)
      (lv'.getProperty (args.map (Expr.rename C.names)) (C.names.scope s)) := by
  match args with
  | [keyExpr, targetExpr] =>
      refine (hC.evalKey hLevels (hArgs keyExpr (by simp))).bind fun w₁ h₁ key _ hKey => ?_
      obtain ⟨rfl, _⟩ := hKey
      refine (hLevels w₁ targetExpr s (hC.runs_mono h₁ (hArgs targetExpr (by simp)))).bind
        fun w₂ _ target _ hTarget => ?_
      obtain ⟨rfl, hTarget⟩ := hTarget
      rw [Expr.property?_rename]
      cases hFound : target.property? key with
      | none => exact agree_pure ⟨(Expr.rename_none C.names).symm, hC.admits_none w₂⟩
      | some v => exact agree_pure ⟨rfl, hC.admits_property hTarget hFound⟩
  | [] | [_] | _ :: _ :: _ :: _ => exact hC.agree_throw (.malformed (.arguments .getProperty))

/-! Plots. Options, data and samples are numbers and texts, so they are the same
on both sides. -/

/-- Options hold texts and a number, which are the same on both sides. The scale
of texts is positive, so the texts of the plot can be given it. -/
theorem Lawful.evalOptions {options : Option Expr} (hRuns : ∀ e ∈ options, C.runs w e s) :
    C.Agree w (fun _ o o' => o = o' ∧ 0.0 < o.textScale) (lv.evalOptions options s)
      (lv'.evalOptions (options.map (Expr.rename C.names)) (C.names.scope s)) := by
  cases options with
  | none => exact agree_pure ⟨rfl, Plot.Options.textScale_pos_default⟩
  | some e =>
      refine (hLevels w e s (hRuns e rfl)).bind fun w₁ _ given _ hGiven => ?_
      obtain ⟨rfl, _⟩ := hGiven
      exact hC.agree_ofExcept (Plot.Options.ofExpr_rename C.names given) fun _ hOptions =>
        ⟨rfl, (Plot.Options.given_of_ofExpr hOptions).2.2⟩

theorem Lawful.evalData {e : Expr} (hRuns : C.runs w e s) :
    C.Agree w
      (fun _ data data' => data' = data.map (Expr.rename C.names) (List.map (Expr.rename C.names)))
      (lv.evalData e s) (lv'.evalData (e.rename C.names) (C.names.scope s)) := by
  refine (hLevels w e s hRuns).bind fun w₁ _ data _ hData => ?_
  obtain ⟨rfl, _⟩ := hData
  have hRefused : C.Agree w₁
      (fun _ data data' => data' = data.map (Expr.rename C.names) (List.map (Expr.rename C.names)))
      (throw (EvalError.mismatch .plotData) : EvalM (Expr × List Expr))
      (throw (EvalError.mismatch .plotData) : EvalM (Expr × List Expr)) :=
    hC.agree_throw (.mismatch .plotData)
  rw [Expr.head_rename, Expr.tail_rename]
  cases data.head with
  | list =>
      cases data.tail with
      | nil => exact hRefused
      | cons first rest => exact agree_pure rfl
  | _ => exact hRefused

/-- Plots are drawn from numbers, so corresponding data give the same plot. -/
theorem Lawful.plotData {dataExpr : Expr} {options : Option Expr} (hData : C.runs w dataExpr s)
    (hOptions : ∀ e ∈ options, C.runs w e s) :
    C.Agree w C.Same (lv.plotData dataExpr options s)
      (lv'.plotData (dataExpr.rename C.names) (options.map (Expr.rename C.names))
        (C.names.scope s)) := by
  refine (hC.evalData hLevels hData).bind fun w₁ h₁ data _ hSame => ?_
  subst hSame
  refine (hC.evalOptions hLevels fun e he => hC.runs_mono h₁ (hOptions e he)).bind
    fun w₂ h₂ given _ hSame => ?_
  obtain ⟨rfl, hScale⟩ := hSame
  have hFirst : C.Agree w₂ (fun _ p p' => p = p') (EvalM.ofExcept (plotPoint data.1))
      (EvalM.ofExcept (plotPoint (data.1.rename C.names))) :=
    hC.agree_ofExcept (plotPoint_rename C.names data.1) fun _ _ => rfl
  refine hFirst.bind fun w₃ _ first _ hSame => ?_
  subst hSame
  have hEntries : (data.2.map (Expr.rename C.names)).mapM plotPoint =
      C.names.result id (data.2.mapM plotPoint) := by
    rw [C.names.result_mapM data.2 fun entry _ => plotPoint_rename C.names entry, List.map_id_fun]
  have hRest : C.Agree w₃ (fun _ ps ps' => ps = ps') (EvalM.ofExcept (data.2.mapM plotPoint))
      (EvalM.ofExcept ((data.2.map (Expr.rename C.names)).mapM plotPoint)) :=
    hC.agree_ofExcept hEntries fun _ _ => rfl
  refine hRest.bind fun w₄ _ rest _ hSame => ?_
  subst hSame
  refine (hC.agree_log rfl).bind fun w₅ _ _ _ _ =>
    agree_pure ⟨?_, hC.admits_plot w₅ _ _ hScale⟩
  simp [Function.comp_def]

theorem Lawful.discretePlot {args : List Expr} (hArgs : ∀ a ∈ args, C.runs w a s) :
    C.Agree w C.Same (lv.discretePlot args s)
      (lv'.discretePlot (args.map (Expr.rename C.names)) (C.names.scope s)) := by
  match args with
  | [data] => exact hC.plotData hLevels (hArgs data (by simp)) (by simp)
  | [data, options] =>
      exact hC.plotData hLevels (hArgs data (by simp)) (by simpa using hArgs options (by simp))
  | [] | _ :: _ :: _ :: _ => exact hC.agree_throw (.malformed (.arguments .discretePlot))

/-- A sample is a number, and the same one on both sides. -/
theorem Lawful.sampleProcedure {proc : Expr} (hProc : C.admits w proc) (x : Float) :
    C.Agree w (fun _ y y' => y = y') (lv.sampleProcedure proc x)
      (lv'.sampleProcedure (proc.rename C.names) x) := by
  have hArgument : ∀ a ∈ [Expr.number x], C.admits w a := by
    simpa using hC.admits_number w x
  have hCall := hC.apply hLevels hProc hArgument
  rw [List.map_singleton, Expr.rename_number] at hCall
  refine hCall.bind fun w₁ _ y _ hy => ?_
  obtain ⟨rfl, _⟩ := hy
  rw [Expr.asNumber?_rename]
  cases y.asNumber? with
  | some v => exact agree_pure rfl
  | none => exact hC.agree_throw (.mismatch (.sampleNotNumber y))

theorem Lawful.plotCurve {procExpr boundsExpr : Expr} {options : Option Expr}
    (hProcExpr : C.runs w procExpr s) (hBounds : C.runs w boundsExpr s)
    (hOptions : ∀ e ∈ options, C.runs w e s) :
    C.Agree w C.Same (lv.plotCurve procExpr boundsExpr options s)
      (lv'.plotCurve (procExpr.rename C.names) (boundsExpr.rename C.names)
        (options.map (Expr.rename C.names)) (C.names.scope s)) := by
  refine (hC.evalProcedure hLevels .continuousPlot hProcExpr).bind fun w₁ h₁ proc _ hProc => ?_
  obtain ⟨rfl, hProc⟩ := hProc
  refine (hLevels w₁ boundsExpr s (hC.runs_mono h₁ hBounds)).bind fun w₂ h₂ bounds _ hSame => ?_
  obtain ⟨rfl, _⟩ := hSame
  have hEnds : C.Agree w₂ (fun _ p p' => p = p') (EvalM.ofExcept (curveBounds bounds))
      (EvalM.ofExcept (curveBounds (bounds.rename C.names))) :=
    hC.agree_ofExcept (curveBounds_rename C.names bounds) fun _ _ => rfl
  refine hEnds.bind fun w₃ h₃ ends _ hSame => ?_
  subst hSame
  have h₁₃ := h₁.trans (h₂.trans h₃)
  refine (hC.evalOptions hLevels fun e he => hC.runs_mono h₁₃ (hOptions e he)).bind
    fun w₄ h₄ given _ hSame => ?_
  obtain ⟨rfl, hScale⟩ := hSame
  have h₂₄ := h₂.trans (h₃.trans h₄)
  refine (agree_sample Plot.bends ends.1 ends.2 fun x w' h' =>
    hC.sampleProcedure hLevels (hC.admits_mono (h₂₄.trans h') hProc) x).bind
      fun w₅ _ samples _ hSame => ?_
  subst hSame
  refine (hC.agree_log rfl).bind fun w₆ _ _ _ _ =>
    agree_pure ⟨?_, hC.admits_plot w₆ _ _ hScale⟩
  simp [Function.comp_def]

theorem Lawful.continuousPlot {args : List Expr} (hArgs : ∀ a ∈ args, C.runs w a s) :
    C.Agree w C.Same (lv.continuousPlot args s)
      (lv'.continuousPlot (args.map (Expr.rename C.names)) (C.names.scope s)) := by
  match args with
  | [proc, bounds] =>
      exact hC.plotCurve hLevels (hArgs proc (by simp)) (hArgs bounds (by simp)) (by simp)
  | [proc, bounds, options] =>
      exact hC.plotCurve hLevels (hArgs proc (by simp)) (hArgs bounds (by simp))
        (by simpa using hArgs options (by simp))
  | [] | [_] | _ :: _ :: _ :: _ :: _ =>
      exact hC.agree_throw (.malformed (.arguments .continuousPlot))

/-- One step of evaluation agrees if evaluation one level deeper does. -/
theorem Lawful.step {e : Expr} (hRuns : C.runs w e s) :
    C.Agree w C.Same (lv.step e s) (lv'.step (e.rename C.names) (C.names.scope s)) := by
  unfold Level.step
  rw [Expr.form_rename]
  cases hForm : e.form with
  | literal => exact agree_pure ⟨rfl, hC.runs_literal hRuns hForm⟩
  | «variable» x => exact hC.lookupVariable hRuns x
  | call head args =>
      exact hC.call hLevels hRuns fun a ha => hC.runs_call hRuns hForm ha
  | special k args =>
      cases k with
      | define => exact hC.define hLevels hRuns hForm
      | lambda => exact hC.lambda hRuns hForm
      | sequence =>
          exact hC.sequence hLevels fun a ha => hC.runs_special hRuns hForm (by decide) ha
      | apply => exact hC.applyForm hLevels fun a ha => hC.runs_special hRuns hForm (by decide) ha
      | map => exact hC.mapForm hLevels fun a ha => hC.runs_special hRuns hForm (by decide) ha
      | setProperty =>
          exact hC.setProperty hLevels fun a ha => hC.runs_special hRuns hForm (by decide) ha
      | getProperty =>
          exact hC.getProperty hLevels fun a ha => hC.runs_special hRuns hForm (by decide) ha
      | discretePlot =>
          exact hC.discretePlot hLevels fun a ha => hC.runs_special hRuns hForm (by decide) ha
      | continuousPlot =>
          exact hC.continuousPlot hLevels fun a ha => hC.runs_special hRuns hForm (by decide) ha

end Rules

/-- Evaluation with equally many levels left agrees, whatever the two ceilings
are, as soon as crossing them does. -/
theorem Lawful.evalWithin (hC : C.Lawful) {c c' : Ceiling}
    (hExceed : ∀ w, C.Agree w C.Same (exceed c) (exceed c')) (n : Nat) {e : Expr}
    (hRuns : C.runs w e s) :
    C.Agree w C.Same (PlotLang.evalWithin c n e s)
      (PlotLang.evalWithin c' n (e.rename C.names) (C.names.scope s)) := by
  induction n generalizing w e s with
  | zero => exact hExceed w
  | succ n ih => exact hC.step (fun w e s hRuns => ih hRuns) hRuns

end PlotLang.Correspondence
