import Mathlib.Data.List.Forall2
import Mathlib.Order.Basic
import PlotLang.Proofs.Machine
import PlotLang.Proofs.Renaming.Operation

/-! Two evaluations that run alike. The second evaluates renamed expressions on
a machine that corresponds to that of the first. What correspondence means is
left open: every reading that the single operations respect is respected by
whole evaluations. With the identity as renaming and one machine on both sides,
a correspondence is an invariant of evaluation. -/
namespace PlotLang

open EStateM (Result)

/-- The one stage of what does not change while an evaluation runs. -/
inductive Timeless where
  | always

instance : Preorder Timeless where
  le _ _ := True
  le_refl _ := trivial
  le_trans _ _ _ _ _ := trivial

/-- What two evaluations have in common while they run. Stages order the pairs
of machines in time; what holds of a value at one stage holds later on. -/
structure Correspondence (Stage : Type) [Preorder Stage] where
  names : Renaming
  /-- the values that the first evaluation may meet -/
  admits : Stage → Expr → Prop
  /-- the expressions that the first evaluation may evaluate, and where -/
  runs : Stage → Expr → ScopeId → Prop
  machine : Stage → Machine → Machine → Prop
  error : EvalError → EvalError → Prop
  /-- errors of the first evaluation that leave the second one free -/
  excused : EvalError → Prop

namespace Correspondence
variable {Stage : Type} [Preorder Stage] (C : Correspondence Stage)

/-- Two results correspond, at this stage or a later one. -/
inductive Results {α β : Type} (w : Stage) (post : Stage → α → β → Prop) :
    Result EvalError Machine α → Result EvalError Machine β → Prop where
  | ok {w' : Stage} {a : α} {b : β} {m m' : Machine} (hStage : w ≤ w')
      (hMachine : C.machine w' m m') (hPost : post w' a b) : Results w post (.ok a m) (.ok b m')
  | error {w' : Stage} {e e' : EvalError} {m m' : Machine} (hStage : w ≤ w')
      (hMachine : C.machine w' m m') (hError : C.error e e') :
      Results w post (.error e m) (.error e' m')
  | excused {e : EvalError} {m : Machine} {result : Result EvalError Machine β}
      (hExcused : C.excused e) : Results w post (.error e m) result

/-- Two computations take corresponding machines to corresponding results. -/
def Agree {α β : Type} (w : Stage) (post : Stage → α → β → Prop) (x : EvalM α) (y : EvalM β) :
    Prop :=
  ∀ m m', C.machine w m m' → C.Results w post (x m) (y m')

/-- The second value is the first one renamed. -/
def Same (w : Stage) (v v' : Expr) : Prop := v' = v.rename C.names ∧ C.admits w v

/-- Evaluation one level deeper agrees, wherever it may be used. -/
def Levels (lv lv' : Level) : Prop :=
  ∀ w e s, C.runs w e s →
    C.Agree w C.Same (lv.eval e s) (lv'.eval (e.rename C.names) (C.names.scope s))

/-- What the operations on values must respect of the values that they are
given and return. -/
structure ValueLaws (admits : Stage → Expr → Prop) : Prop where
  admits_mono : ∀ {w w' v}, w ≤ w' → admits w v → admits w' v
  admits_none : ∀ w, admits w .none
  admits_number : ∀ w x, admits w (.number x)
  admits_list : ∀ {w vs}, (∀ v ∈ vs, admits w v) → admits w (.list vs)
  admits_element : ∀ {w v c}, admits w v → v.isList = true → c ∈ v.tail → admits w c
  admits_run : ∀ {w b args v}, (∀ a ∈ args, admits w a) → Builtin.run b args = .ok v → admits w v
  admits_withProperty : ∀ {w name key value target v}, admits w name →
    name.asString? = some key → admits w value → admits w target →
    withProperty key value target = .ok v → admits w v
  admits_property : ∀ {w target key v}, admits w target → target.property? key = some v →
    admits w v
  admits_plot : ∀ w name {scale : Float} (items : List (Plot.Item Float)), 0.0 < scale →
    admits w (.plot name (items.map (Plot.Item.toExpr scale)))

/-- What the parts of a form that are evaluated in its own scope must respect.
The body of a `lambda` form is not one of them. -/
structure FormLaws (admits : Stage → Expr → Prop) (runs : Stage → Expr → ScopeId → Prop) :
    Prop where
  runs_mono : ∀ {w w' e s}, w ≤ w' → runs w e s → runs w' e s
  runs_literal : ∀ {w e s}, runs w e s → e.form = .literal → admits w e
  runs_special : ∀ {w e s k args a}, runs w e s → e.form = .special k args → k ≠ .lambda →
    a ∈ args → runs w a s
  runs_call : ∀ {w e s f args a}, runs w e s → e.form = .call f args → a ∈ args → runs w a s

/-- A correspondence that asks nothing of values obeys all laws of values. -/
theorem ValueLaws.trivial : ValueLaws fun (_ : Stage) _ => True := by
  constructor <;> intros <;> exact True.intro

/-- What the single operations must respect. Nothing is asked about whole
evaluations. -/
structure Lawful : Prop extends ValueLaws C.admits, FormLaws C.admits C.runs where
  error_rename : ∀ e, C.error e (e.rename C.names)
  machine_logged : ∀ {w m m' r}, C.machine w m m' → r.isCall = false →
    C.machine w (m.logged r) (m'.logged r)
  lookup : ∀ {w e s m m'}, C.runs w e s → C.machine w m m' → ∀ x,
    m'.store.lookup? (C.names.scope s) (C.names.symbol x) =
      (m.store.lookup? s x).map (Expr.rename C.names)
  admits_lookup : ∀ {w e s m m'}, C.runs w e s → C.machine w m m' → ∀ {x v},
    m.store.lookup? s x = some v → C.admits w v
  reserved : ∀ {w e s m m'}, C.runs w e s → C.machine w m m' → ∀ x,
    m'.store.isReserved (C.names.scope s) (C.names.symbol x) = m.store.isReserved s x
  defined : ∀ {w e s name value x v m m'}, C.runs w e s → e.form = .special .define [name, value] →
    name.asSymbol? = some x → x.isKeyword = false → C.admits w v → C.machine w m m' →
    m.store.isReserved s x = false →
    ∃ w' ≥ w, C.machine w' (m.defined s x v)
      (m'.defined (C.names.scope s) (C.names.symbol x) (v.rename C.names))
  minted : ∀ {w e s params forms formals m m'}, C.runs w e s →
    e.form = .special .lambda (params :: forms) → forms ≠ [] →
    parseFormals params = .ok formals → C.machine w m m' →
    m'.store.closures = C.names.identity m.store.closures ∧
      ∃ w' ≥ w, C.machine w' m.minted m'.minted ∧
        C.admits w' (.lambda ⟨m.store.closures, formals, s⟩ (bodyOf forms))
  called : ∀ {w proc c body rest args m m'} (d d' : Int), C.admits w proc →
    proc.head = .lambda c → proc.tail = body :: rest → (∀ a ∈ args, C.admits w a) →
    args.length = c.formals.length → C.machine w m m' →
    m'.store.scopes.size = C.names.scope m.store.scopes.size ∧
      ∃ w' ≥ w, C.runs w' body m.store.scopes.size ∧
        C.machine w' (m.called d c args)
          (m'.called d' (c.rename C.names) (args.map (Expr.rename C.names)))

section Combinators
variable {C} {α β γ δ : Type} {w : Stage} {post : Stage → α → β → Prop}
  {post' : Stage → γ → δ → Prop}

/-- Results that correspond at a later stage correspond at every stage before it. -/
theorem Results.later {w' : Stage} (hStage : w ≤ w') {x : Result EvalError Machine α}
    {y : Result EvalError Machine β} (h : C.Results w' post x y) : C.Results w post x y := by
  cases h with
  | ok hLater hMachine hPost => exact .ok (hStage.trans hLater) hMachine hPost
  | error hLater hMachine hError => exact .error (hStage.trans hLater) hMachine hError
  | excused hExcused => exact .excused hExcused

theorem agree_pure {a : α} {b : β} (h : post w a b) : C.Agree w post (pure a) (pure b) :=
  fun _ _ hMachine => .ok le_rfl hMachine h

/-- An error ends both computations: no rule of the language catches it. -/
theorem Agree.bind {x : EvalM α} {y : EvalM β} {f : α → EvalM γ} {g : β → EvalM δ}
    (hx : C.Agree w post x y)
    (hf : ∀ w' ≥ w, ∀ a b, post w' a b → C.Agree w' post' (f a) (g b)) :
    C.Agree w post' (x >>= f) (y >>= g) := by
  intro m m' hMachine
  have hResults := hx m m' hMachine
  change C.Results w post' (EStateM.bind x f m) (EStateM.bind y g m')
  unfold EStateM.bind
  generalize x m = first at hResults ⊢
  generalize y m' = second at hResults ⊢
  cases hResults with
  | ok hStage hMachine hPost => exact (hf _ hStage _ _ hPost _ _ hMachine).later hStage
  | error hStage hMachine hError => exact .error hStage hMachine hError
  | excused hExcused => exact .excused hExcused

/-- Less may be asked of results that correspond. -/
theorem Agree.weaken {stronger : Stage → α → β → Prop} {x : EvalM α} {y : EvalM β}
    (hx : C.Agree w stronger x y) (h : ∀ w' a b, stronger w' a b → post w' a b) :
    C.Agree w post x y := by
  intro m m' hMachine
  have hResults := hx m m' hMachine
  generalize x m = first at hResults ⊢
  generalize y m' = second at hResults ⊢
  cases hResults with
  | ok hStage hMachine hPost => exact .ok hStage hMachine (h _ _ _ hPost)
  | error hStage hMachine hError => exact .error hStage hMachine hError
  | excused hExcused => exact .excused hExcused

/-- A traversal on both sides, element by element. The results of earlier
elements keep what is known of them while later ones are computed. -/
theorem agree_mapM {x : α → EvalM γ} {y : β → EvalM δ} {R : α → β → Prop} {as : List α}
    {bs : List β} (hMono : ∀ {w w'}, w ≤ w' → ∀ c d, post' w c d → post' w' c d)
    (hElements : List.Forall₂ R as bs)
    (h : ∀ a b, R a b → ∀ w' ≥ w, C.Agree w' post' (x a) (y b)) :
    C.Agree w (fun w' => List.Forall₂ (post' w')) (as.mapM x) (bs.mapM y) := by
  induction hElements generalizing w with
  | nil => exact agree_pure .nil
  | cons hHead hTail ih =>
      rw [List.mapM_cons, List.mapM_cons]
      refine (h _ _ hHead w le_rfl).bind fun w₁ h₁ c d hFirst => ?_
      refine (ih fun a b hab w' h' => h a b hab w' (h₁.trans h')).bind fun w₂ h₂ cs ds hRest => ?_
      exact agree_pure (.cons (hMono h₂ c d hFirst) hRest)

variable (hC : C.Lawful)
include hC

/-- An error corresponds to its renamed copy. -/
theorem Lawful.agree_throw (e : EvalError) :
    C.Agree w post (throw e : EvalM α) (throw (e.rename C.names) : EvalM β) :=
  fun _ _ hMachine => .error le_rfl hMachine (hC.error_rename e)

/-- A computation without effects corresponds to one with the renamed result. -/
theorem Lawful.agree_ofExcept {x : Except EvalError α} {y : Except EvalError β} {f : α → β}
    (hy : y = C.names.result f x) (h : ∀ a, x = .ok a → post w a (f a)) :
    C.Agree w post (EvalM.ofExcept x) (EvalM.ofExcept y) := by
  subst hy
  cases x with
  | ok a => exact agree_pure (h a rfl)
  | error e => exact hC.agree_throw e

/-- Records that are not about calls are kept as they are. -/
theorem Lawful.agree_log {r : LogRecord} (hr : r.isCall = false) :
    C.Agree w (fun _ _ _ => True) (EvalM.log r) (EvalM.log r) :=
  fun _ _ hMachine => .ok le_rfl (hC.machine_logged hMachine hr) trivial

theorem Lawful.same_mono {w w' : Stage} (h : w ≤ w') {v v' : Expr} (hv : C.Same w v v') :
    C.Same w' v v' :=
  ⟨hv.1, hC.admits_mono h hv.2⟩

end Combinators

end Correspondence
end PlotLang
