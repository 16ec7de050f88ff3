import PlotLang.Builtin.Run
import PlotLang.Eval.Plot
import PlotLang.Eval.Procedure
import PlotLang.Eval.Property
import PlotLang.Proofs.Renaming.View

/-! The operations that evaluation applies to values commute with renaming: the
built-in procedures, properties, plot options, data points and parameter lists.
Each equation covers the failures too, with the error renamed. -/
namespace PlotLang

namespace Renaming
variable (r : Renaming)

/-- One law for every chain of checks: what is renamed at the start may as well
be renamed at the end. -/
theorem result_bind {α β γ δ : Type} {x : Except EvalError α} {x' : Except EvalError β} {f : α → β}
    {k : α → Except EvalError γ} {k' : β → Except EvalError δ} {g : γ → δ}
    (hx : x' = r.result f x) (hk : ∀ a, x = .ok a → k' (f a) = r.result g (k a)) :
    x' >>= k' = r.result g (x >>= k) := by
  subst hx
  cases x with
  | ok a => exact hk a rfl
  | error e => rfl

/-- A traversal commutes with a renaming if its step does. -/
theorem result_mapM {α β γ δ : Type} {f : α → β} {g : γ → δ} {op : α → Except EvalError γ}
    {op' : β → Except EvalError δ} (as : List α) (h : ∀ a ∈ as, op' (f a) = r.result g (op a)) :
    (as.map f).mapM op' = r.result (List.map g) (as.mapM op) := by
  induction as with
  | nil => rfl
  | cons a as ih =>
      rw [List.map_cons, List.mapM_cons, List.mapM_cons]
      refine r.result_bind (h a List.mem_cons_self) fun c _ => ?_
      exact r.result_bind (ih fun b hb => h b (List.mem_cons_of_mem a hb)) fun cs _ => rfl

end Renaming

namespace Builtin
variable (r : Renaming) (b : Builtin) (e : Expr) (args : List Expr)

/-- Renaming keeps the count of arguments. -/
theorem checkArity_rename (allowed : List Nat) :
    checkArity b allowed (args.map (Expr.rename r)) = r.result id (checkArity b allowed args) := by
  by_cases h : allowed.contains args.length
  · simp only [checkArity, List.length_map, h, if_true]
    rfl
  · simp only [checkArity, List.length_map, h]
    rfl

theorem one_rename :
    one b (args.map (Expr.rename r)) = r.result (Expr.rename r) (one b args) := by
  match args with
  | [a] => rfl
  | [] | _ :: _ :: _ => simp [one, Renaming.result, EvalError.rename, ArityFault.rename]

theorem two_rename :
    two b (args.map (Expr.rename r)) =
      r.result (Prod.map (Expr.rename r) (Expr.rename r)) (two b args) := by
  match args with
  | [a, c] => rfl
  | [] | [_] | _ :: _ :: _ :: _ => simp [two, Renaming.result, EvalError.rename, ArityFault.rename]

/-- What is a number is so after renaming, and the same one. -/
theorem number_rename : number b (e.rename r) = r.result id (number b e) := by
  obtain ⟨a, es, ps⟩ := e
  cases a <;> cases es <;>
    simp [number, Expr.rename_mk, Atom.rename, Renaming.result, EvalError.rename, Mismatch.rename]

theorem realNumber_rename : realNumber b (e.rename r) = r.result id (realNumber b e) := by
  cases h : e.asNumber? <;>
    simp [realNumber, h, Renaming.result, EvalError.rename, Mismatch.rename]

theorem complexNumber_rename : complexNumber b (e.rename r) = r.result id (complexNumber b e) := by
  obtain ⟨a, es, ps⟩ := e
  cases a <;> cases es <;>
    simp [complexNumber, Expr.rename_mk, Atom.rename, Renaming.result, EvalError.rename,
      Mismatch.rename]

/-- A list stays a list, with renamed elements. -/
theorem elements_rename :
    elements b (e.rename r) = r.result (List.map (Expr.rename r)) (elements b e) := by
  cases h : e.isList <;>
    simp [elements, h, Renaming.result, EvalError.rename, Mismatch.rename]

theorem headAndRest_rename :
    headAndRest b (e.rename r) =
      r.result (Prod.map (Expr.rename r) (List.map (Expr.rename r))) (headAndRest b e) := by
  refine r.result_bind (elements_rename r b e) fun xs _ => ?_
  cases xs with
  | nil => rfl
  | cons x xs => rfl

/-! Faults of arithmetic quote no names. -/

/-- Arithmetic fails for the same numbers, with errors that name nothing. -/
theorem quotient_rename (x y : Number) : quotient x y = r.result id (quotient x y) := by
  unfold quotient
  split
  · rfl
  · rfl

theorem modulus_rename (z : Complex) : modulus z = r.result id (modulus z) := by
  unfold modulus
  split
  · rfl
  · rfl

theorem angle_rename (z : Complex) : angle z = r.result id (angle z) := by
  unfold angle
  split
  · rfl
  · rfl

theorem ln_rename (x : Number) : x.ln = r.result id x.ln := by
  cases x with
  | real x =>
      rw [Number.ln]
      split
      · rfl
      · rfl
  | complex z =>
      rw [Number.ln]
      split
      · rfl
      · rfl

theorem complexPow_rename (z w : Complex) :
    Number.complexPow z w = r.result id (Number.complexPow z w) := by
  unfold Number.complexPow
  split
  · rfl
  · rfl
  · rfl

theorem realPow_rename (x y : Float) : Number.realPow x y = r.result id (Number.realPow x y) := by
  unfold Number.realPow
  split
  · exact complexPow_rename r _ _
  · simp only
    split
    · rfl
    · rfl

theorem pow_rename (x y : Number) : x.pow y = r.result id (x.pow y) := by
  cases x with
  | real a =>
      cases y with
      | real c =>
          unfold Number.pow
          dsimp only
          split
          · rfl
          · exact realPow_rename r a c
      | complex w =>
          unfold Number.pow
          dsimp only
          split
          · rfl
          · exact complexPow_rename r _ w
  | complex z =>
      cases y with
      | real c =>
          unfold Number.pow
          dsimp only
          split
          · rfl
          · exact complexPow_rename r z _
      | complex w =>
          unfold Number.pow
          dsimp only
          split
          · rfl
          · exact complexPow_rename r z w

theorem floorFloat_rename (x : Float) : floorFloat x = r.result id (floorFloat x) := by
  unfold floorFloat
  split
  · rfl
  · split
    · rfl
    · rfl

theorem range_rename (start stop step : Float) :
    PlotLang.range floorFloat start stop step =
      r.result id (PlotLang.range floorFloat start stop step) := by
  have hCount : rangeCount floorFloat start stop step =
      r.result id (rangeCount floorFloat start stop step) :=
    r.result_bind (floorFloat_rename r _) fun _ _ => rfl
  unfold PlotLang.range
  split
  · rfl
  · split
    · rfl
    · exact r.result_bind hCount fun _ _ => rfl

@[simp] theorem rename_toExpr (x : Number) : x.toExpr.rename r = x.toExpr := by
  cases x <;> exact Expr.rename_leaf r _

/-- Results of arithmetic contain nothing that a renaming touches. -/
theorem map_toExpr_rename {x : Except EvalError Number} (hx : x = r.result id x) :
    Number.toExpr <$> x = r.result (Expr.rename r) (Number.toExpr <$> x) := by
  cases x with
  | ok x => exact congrArg Except.ok (rename_toExpr r x).symm
  | error e => exact congrArg (Functor.map Number.toExpr) hx

theorem numbers_rename :
    (args.map (Expr.rename r)).mapM (number b) = r.result id (args.mapM (number b)) := by
  rw [r.result_mapM args fun a _ => number_rename r b a, List.map_id_fun]

/-- A procedure of numbers has the same result for renamed arguments. -/
theorem runOneOrTwo_rename {f : Number → Except EvalError Number}
    {g : Number → Number → Except EvalError Number} (hf : ∀ x, f x = r.result id (f x))
    (hg : ∀ x y, g x y = r.result id (g x y)) :
    runOneOrTwo b f g (args.map (Expr.rename r)) =
      r.result (Expr.rename r) (runOneOrTwo b f g args) := by
  refine r.result_bind (checkArity_rename r b args [1, 2]) fun _ _ => ?_
  refine r.result_bind (numbers_rename r b args) fun xs _ => ?_
  match xs with
  | [x] => exact map_toExpr_rename r (hf x)
  | [x, y] => exact map_toExpr_rename r (hg x y)
  | [] | _ :: _ :: _ :: _ => simp only [id, List.length_map]; rfl

theorem runFinite_rename (f : Float → Float) :
    runFinite b f (args.map (Expr.rename r)) =
      r.result (Expr.rename r) (runFinite b f args) := by
  refine r.result_bind (one_rename r b args) fun a _ => ?_
  refine r.result_bind (realNumber_rename r b a) fun x _ => ?_
  by_cases h : x.isInf
  · simp only [id, h, if_true]
    rfl
  · simp only [id, h]
    exact congrArg Except.ok (Expr.rename_number r (f x)).symm

theorem runPart_rename {f : Complex → Except EvalError Float}
    (hf : ∀ z, f z = r.result id (f z)) :
    runPart b f (args.map (Expr.rename r)) = r.result (Expr.rename r) (runPart b f args) := by
  refine r.result_bind (one_rename r b args) fun a _ => ?_
  refine r.result_bind (complexNumber_rename r b a) fun z _ => ?_
  refine r.result_bind (hf z) fun x _ => ?_
  exact congrArg Except.ok (Expr.rename_number r x).symm

/-- A built-in procedure sees no names: renaming its arguments renames its
value, or its error. -/
theorem run_rename :
    run b (args.map (Expr.rename r)) = r.result (Expr.rename r) (run b args) := by
  cases b with
  | add =>
      exact r.result_bind (numbers_rename r add args) fun xs _ =>
        congrArg Except.ok (rename_toExpr r _).symm
  | sub => exact runOneOrTwo_rename r sub args (fun _ => rfl) (fun _ _ => rfl)
  | mul =>
      exact r.result_bind (numbers_rename r mul args) fun xs _ =>
        congrArg Except.ok (rename_toExpr r _).symm
  | div => exact runOneOrTwo_rename r div args (quotient_rename r _) (quotient_rename r)
  | pow =>
      refine r.result_bind (two_rename r pow args) fun a _ => ?_
      refine r.result_bind (number_rename r pow a.1) fun base _ => ?_
      refine r.result_bind (number_rename r pow a.2) fun exponent _ => ?_
      exact r.result_bind (pow_rename r base exponent) fun x _ =>
        congrArg Except.ok (rename_toExpr r x).symm
  | sqrt =>
      refine r.result_bind (one_rename r sqrt args) fun a _ => ?_
      exact r.result_bind (number_rename r sqrt a) fun x _ =>
        congrArg Except.ok (rename_toExpr r _).symm
  | ln =>
      refine r.result_bind (one_rename r ln args) fun a _ => ?_
      refine r.result_bind (number_rename r ln a) fun x _ => ?_
      exact r.result_bind (ln_rename r x) fun y _ => congrArg Except.ok (rename_toExpr r y).symm
  | sin => exact runFinite_rename r sin args Float.sin
  | cos => exact runFinite_rename r cos args Float.cos
  | tan => exact runFinite_rename r tan args Float.tan
  | real => exact runPart_rename r real args fun _ => rfl
  | imag => exact runPart_rename r imag args fun _ => rfl
  | mag => exact runPart_rename r mag args (modulus_rename r)
  | arg => exact runPart_rename r arg args (angle_rename r)
  | conj =>
      refine r.result_bind (one_rename r conj args) fun a _ => ?_
      exact r.result_bind (complexNumber_rename r conj a) fun z _ =>
        congrArg Except.ok (rename_toExpr r _).symm
  | list => exact congrArg Except.ok (Expr.rename_list r args).symm
  | first =>
      refine r.result_bind (one_rename r first args) fun a _ => ?_
      exact r.result_bind (headAndRest_rename r first a) fun x _ => rfl
  | rest =>
      refine r.result_bind (one_rename r rest args) fun a _ => ?_
      exact r.result_bind (headAndRest_rename r rest a) fun x _ =>
        congrArg Except.ok (Expr.rename_list r x.2).symm
  | length =>
      refine r.result_bind (one_rename r length args) fun a _ => ?_
      refine r.result_bind (elements_rename r length a) fun xs _ => ?_
      rw [List.length_map]
      exact congrArg Except.ok (Expr.rename_number r _).symm
  | append =>
      refine r.result_bind (two_rename r append args) fun a _ => ?_
      refine r.result_bind (elements_rename r append a.1) fun xs _ => ?_
      exact congrArg Except.ok (by simp)
  | join =>
      refine r.result_bind (two_rename r join args) fun a _ => ?_
      refine r.result_bind (elements_rename r join a.1) fun xs _ => ?_
      refine r.result_bind (elements_rename r join a.2) fun ys _ => ?_
      exact congrArg Except.ok (by simp)
  | range =>
      have hNumbers : (args.map (Expr.rename r)).mapM (realNumber range) =
          r.result id (args.mapM (realNumber range)) := by
        rw [r.result_mapM args fun a _ => realNumber_rename r range a, List.map_id_fun]
      refine r.result_bind (checkArity_rename r range args [3]) fun _ _ => ?_
      refine r.result_bind hNumbers fun xs _ => ?_
      match xs with
      | [start, stop, step] =>
          exact r.result_bind (range_rename r start stop step) fun ys _ =>
            congrArg Except.ok (by simp [Function.comp_def])
      | [] | [_] | [_, _] | _ :: _ :: _ :: _ :: _ => simp only [id, List.length_map]; rfl
  | makePoint =>
      refine r.result_bind (two_rename r makePoint args) fun a _ => ?_
      refine r.result_bind (realNumber_rename r makePoint a.1) fun x _ => ?_
      refine r.result_bind (realNumber_rename r makePoint a.2) fun y _ => ?_
      exact congrArg Except.ok (by simp [Expr.point])
  | makeLine =>
      refine r.result_bind (two_rename r makeLine args) fun a _ => ?_
      simp only [Prod.map_fst, Prod.map_snd, Expr.isPoint_rename]
      split
      · exact congrArg Except.ok (by simp [Expr.line])
      · rfl
  | makeText =>
      refine r.result_bind (one_rename r makeText args) fun a _ => ?_
      simp only [Expr.asString?_rename]
      cases a.asString? with
      | none => rfl
      | some text => exact congrArg Except.ok (by simp [Expr.label])

end Builtin

variable (r : Renaming)

/-- Checks look at numbers, texts and the shape of points only. -/
theorem checkProperty_rename (key : String) (value : Expr) :
    checkProperty key (value.rename r) = checkProperty key value := by
  simp [checkProperty]

/-- The error of a check quotes no expression. -/
theorem checkProperty_error {key : String} {value : Expr} {m : Mismatch}
    (h : checkProperty key value = .error m) : m.rename r = m := by
  unfold checkProperty Mismatch.unless at h
  grind [Mismatch.rename]

/-- A property is written in the same place of the renamed target. -/
theorem withProperty_rename (key : String) (value target : Expr) :
    withProperty key (value.rename r) (target.rename r) =
      r.result (Expr.rename r) (withProperty key value target) := by
  unfold withProperty
  rw [Expr.isPlotObject_rename, checkProperty_rename]
  split
  · cases h : checkProperty key value with
    | ok _ => exact congrArg Except.ok (Expr.rename_setProperty r target key value).symm
    | error m => simp [Renaming.result, EvalError.rename, checkProperty_error r h]
  · rfl

/-- Items of a plot are made of numbers and texts. -/
@[simp] theorem rename_item (scale : Float) (item : Plot.Item Float) :
    (item.toExpr scale).rename r = item.toExpr scale := by
  cases item <;> simp [Plot.Item.toExpr, Plot.Point.toExpr, Expr.point, Expr.line, Expr.label]

/-- A refused entry is quoted in its error, so the error is renamed with it. -/
theorem plotPoint_rename (entry : Expr) :
    plotPoint (entry.rename r) = r.result id (plotPoint entry) := by
  unfold plotPoint
  rw [Expr.asPair?_rename]
  split
  · rfl
  · rfl

theorem curveBounds_rename (bounds : Expr) :
    curveBounds (bounds.rename r) = r.result id (curveBounds bounds) := by
  refine r.result_bind (plotPoint_rename r bounds) fun p _ => ?_
  simp only [id]
  split
  · rfl
  · rfl

namespace Renaming

/-- A fold commutes with a renaming if its step does. -/
theorem result_foldlM {α β γ δ : Type} {f : α → β} {g : γ → δ} {op : γ → α → Except EvalError γ}
    {op' : δ → β → Except EvalError δ} (h : ∀ c a, op' (g c) (f a) = r.result g (op c a))
    (as : List α) (c : γ) :
    (as.map f).foldlM op' (g c) = r.result g (as.foldlM op c) := by
  induction as generalizing c with
  | nil => rfl
  | cons a as ih =>
      rw [List.map_cons, List.foldlM_cons, List.foldlM_cons]
      exact r.result_bind (h c a) fun c' _ => ih c'

end Renaming

namespace Plot.Options

/-- Options are texts and numbers, so renaming the value sets the same. -/
theorem set_rename (o : Options) (key : OptionKey) (value : Expr) :
    o.set key (value.rename r) = r.result id (o.set key value) := by
  have hText : labelText key (value.rename r) = r.result id (labelText key value) := by
    unfold labelText
    rw [Expr.headString?_rename]
    split
    · rfl
    · rfl
  have hScale : scaleOf (value.rename r) = r.result id (scaleOf value) := by
    unfold scaleOf
    rw [Expr.headNumber?_rename]
    split
    · split
      · rfl
      · rfl
    · rfl
  cases key with
  | textScale => exact r.result_bind hScale fun _ _ => rfl
  | _ => exact r.result_bind hText fun _ _ => rfl

theorem addEntry_rename (o : Options) (entry : Expr) :
    o.addEntry (entry.rename r) = r.result id (o.addEntry entry) := by
  obtain ⟨a, es, ps⟩ := entry
  match a, es with
  | .list, [name, value] =>
      simp only [addEntry, Expr.rename_mk, Atom.rename, List.map_cons, List.map_nil,
        Expr.headString?_rename]
      split
      · simp [Renaming.result, EvalError.rename, Mismatch.rename, Expr.rename_mk, Atom.rename]
      · split
        · exact set_rename r o _ value
        · rfl
  | .list, [] | .list, [_] | .list, _ :: _ :: _ :: _ =>
      simp [addEntry, Expr.rename_mk, Atom.rename, Renaming.result, EvalError.rename,
        Mismatch.rename]
  | .none, _ | .number _, _ | .complex _, _ | .symbol _, _ | .string _, _ | .procedure _, _
  | .lambda _, _ | .discrete _, _ =>
      simp [addEntry, Expr.rename_mk, Atom.rename, Renaming.result, EvalError.rename,
        Mismatch.rename]

theorem ofExpr_rename (e : Expr) : ofExpr (e.rename r) = r.result id (ofExpr e) := by
  unfold ofExpr
  rw [Expr.isList_rename, Expr.tail_rename]
  split
  · exact r.result_foldlM (g := id) (addEntry_rename r) e.tail {}
  · rfl

end Plot.Options

/-- A parameter is refused for being a keyword or a repetition, and renaming keeps
both. -/
theorem addFormal_rename (formals : List Symbol) (c : Expr) :
    addFormal (formals.map r.symbol) (c.rename r) =
      r.result (List.map r.symbol) (addFormal formals c) := by
  unfold addFormal
  rw [Expr.asSymbol?_rename]
  cases c.asSymbol? with
  | none => rfl
  | some x =>
      have hContains : (formals.map r.symbol).contains (r.symbol x) = formals.contains x := by
        simp [r.injective.eq_iff]
      simp only [Option.map_some, Renaming.isKeyword_symbol, hContains]
      split
      · rfl
      · split
        · rfl
        · exact congrArg Except.ok (by simp)

/-- The one parameter `list` of an empty list is fixed by every renaming. -/
theorem parseFormals_rename (params : Expr) :
    parseFormals (params.rename r) = r.result (List.map r.symbol) (parseFormals params) := by
  obtain ⟨a, es, ps⟩ := params
  have hCandidates : (Expr.leaf (a.rename r) :: es.map (Expr.rename r)).foldlM addFormal [] =
      r.result (List.map r.symbol) ((Expr.leaf a :: es).foldlM addFormal []) := by
    rw [← Expr.rename_leaf, ← List.map_cons]
    exact r.result_foldlM (addFormal_rename r) (Expr.leaf a :: es) []
  rw [Expr.rename_mk]
  cases a with
  | none =>
      cases es with
      | nil => rfl
      | cons e es => exact hCandidates
  | list =>
      cases es with
      | nil => exact congrArg Except.ok (by simp [r.listName])
      | cons e es => exact hCandidates
  | _ => exact hCandidates

/-- The implicit sequence is headed by a keyword, which no renaming touches. -/
theorem bodyOf_rename (forms : List Expr) :
    bodyOf (forms.map (Expr.rename r)) = (bodyOf forms).rename r := by
  match forms with
  | [body] => rfl
  | [] | _ :: _ :: _ => simp [bodyOf, Atom.rename, r.keyword]

end PlotLang
