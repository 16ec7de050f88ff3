import PlotLang.Proofs.Protection

/-! The ceiling of first-order code. Code made of sequences, definitions and calls
of built-in procedures evaluates each of its operands exactly once and one level
deeper than itself, and what it does with their values depends on no level. So
the levels that it takes are those that it is written with, and its height is
exactly what the ceiling is compared with. Procedures made by `lambda` have no
such bound, since a call goes on in a body that stands elsewhere. -/
namespace PlotLang

namespace Expr

mutual

/-- The height of an expression: zero for a leaf, and otherwise one more than
that of its highest child. -/
def height : Expr → Nat
  | ⟨_, es, _⟩ => if es.isEmpty then 0 else 1 + highest es

def highest : List Expr → Nat
  | [] => 0
  | e :: es => max (height e) (highest es)

end

/-- The highest argument bounds all others. -/
theorem highest_le_iff {es : List Expr} {n : Nat} : highest es ≤ n ↔ ∀ e ∈ es, e.height ≤ n := by
  induction es with
  | nil => simp [highest]
  | cons e es ih =>
      rw [highest, Nat.max_le, ih, List.forall_mem_cons]

/-- Literals and names are of height zero: they need their own level and none
below it. -/
theorem height_of_leaf {e : Expr} (hLeaf : e.tail = []) : e.height = 0 := by
  obtain ⟨_, _, _⟩ := e
  subst hLeaf
  rfl

/-- An expression fits under a bound if there is room for itself, and its
children fit one level deeper. -/
theorem height_le_iff {e : Expr} {k : Int} :
    (e.height : Int) ≤ k ↔ 0 ≤ k ∧ ∀ a ∈ e.tail, (a.height : Int) ≤ k - 1 := by
  obtain ⟨head, es, ps⟩ := e
  cases es with
  | nil => simp [height]
  | cons a es =>
      have hHeight : (⟨head, a :: es, ps⟩ : Expr).height = 1 + highest (a :: es) := by simp [height]
      have hChildren : highest (a :: es) ≤ (k - 1).toNat ↔
          ∀ b ∈ a :: es, b.height ≤ (k - 1).toNat := highest_le_iff
      rw [hHeight]
      constructor
      · intro h
        refine ⟨by omega, fun b hb => ?_⟩
        have hb := hChildren.mp (by omega) b hb
        omega
      · rintro ⟨-, h⟩
        have hFirst := h a List.mem_cons_self
        have hHighest := hChildren.mpr fun b hb => by
          have hb := h b hb
          omega
        omega

/-- First-order code: sequences, definitions of names and calls of built-in
procedures, down to literals and names. -/
inductive FirstOrder : Expr → Prop where
  | leaf {e : Expr} (hLeaf : e.tail = []) (hForm : e.form = .literal ∨ ∃ x, e.form = .variable x) :
      FirstOrder e
  | sequence {e : Expr} {args : List Expr} (hForm : e.form = .special .sequence args)
      (hArgs : ∀ a ∈ args, FirstOrder a) : FirstOrder e
  | define {e name : Expr} {x : Symbol} {values : List Expr}
      (hForm : e.form = .special .define (name :: values)) (hName : name.asSymbol? = some x)
      (hValues : ∀ a ∈ values, FirstOrder a) : FirstOrder e
  | call {e : Expr} {b : Builtin} {args : List Expr}
      (hForm : e.form = .call (.symbol b.symbol) args) (hArgs : ∀ a ∈ args, FirstOrder a) :
      FirstOrder e

end Expr

/-- The root binds the names of the built-in procedures to these, and has the
names registered. -/
structure Store.HasBuiltins (st : Store) : Prop where
  inUse : root < st.scopes.size
  outer : (st.scope root).outer = none
  reserved : ∀ b : Builtin, b.symbol ∈ (st.scope root).reserved
  bound : ∀ b : Builtin, Table.get? (st.scope root).vars b.symbol = some (.leaf (.procedure b))

namespace Store.HasBuiltins
variable {st : Store}

/-- Every builtin name is found at the root as its procedure. -/
theorem lookup? (h : st.HasBuiltins) (b : Builtin) :
    st.lookup? root b.symbol = some (.leaf (.procedure b)) := by
  simp [Store.lookup?, find?, chain, chainWithin, h.outer, Table.has, h.bound b]

/-- A name may be defined in the root only if it is not registered there. -/
theorem bind (h : st.HasBuiltins) {s : ScopeId} {x : Symbol} (hFree : st.isReserved s x = false)
    (v : Expr) : (st.bind s x v).HasBuiltins where
  inUse := by simpa using h.inUse
  outer := by rw [st.outer_bind, h.outer]
  reserved := by
    intro b
    rw [st.reserved_bind]
    exact h.reserved b
  bound := by
    intro b
    by_cases hRoot : s = root
    · have hOther : b.symbol ≠ x := by
        rintro rfl
        rw [hRoot, isReserved, rootOf_root h.outer] at hFree
        exact absurd (h.reserved b) (by simpa using hFree)
      rw [st.get?_bind_of_ne s hOther, h.bound b]
    · rw [scope_bind_of_ne hRoot, h.bound b]

/-- Scopes of calls leave the root as it is. -/
theorem extend (h : st.HasBuiltins) (sc : Scope) : (st.extend sc).HasBuiltins := by
  have hRoot : (st.extend sc).scope root = st.scope root := by
    rw [st.scope_extend, if_neg (Nat.ne_of_lt h.inUse)]
  refine ⟨?_, hRoot ▸ h.outer, hRoot ▸ h.reserved, hRoot ▸ h.bound⟩
  rw [size_extend]
  exact Nat.lt_succ_of_lt h.inUse

/-- The names were registered in the root, each with its procedure. -/
theorem initial : Store.initial.HasBuiltins := by
  have hBound (b : Builtin) : (b.symbol, Expr.leaf (.procedure b)) ∈ initialBindings :=
    List.mem_append_left _ (List.mem_map_of_mem b.mem_all)
  refine ⟨?_, ?_, fun b => ?_, fun b => ?_⟩
  · rw [initial_spec.1]
    exact Nat.one_pos
  · rw [scope_initial_root]
  · rw [scope_initial_root]
    exact List.mem_map_of_mem (hBound b)
  · rw [scope_initial_root]
    exact Table.get?_of_mem nodup_initialBindings (hBound b)

end Store.HasBuiltins

/-- Builtin names cannot be bound again, so the root keeps its procedures. -/
theorem Invariant.keeps_hasBuiltins : closed.Keeps fun m => m.store.HasBuiltins where
  logged := fun _ hBuiltins _ => hBuiltins
  defined := fun _ _ _ hBuiltins hFree => hBuiltins.bind hFree _
  minted := fun _ hBuiltins =>
    ⟨hBuiltins.inUse, hBuiltins.outer, hBuiltins.reserved, hBuiltins.bound⟩
  called := fun _ _ _ _ _ hBuiltins => hBuiltins.extend _

/-- A reset goes back to the initial store, so it needs no memory of the calls
that were made before it. -/
theorem Session.Reached.hasBuiltins {session : Session} (h : session.Reached) :
    session.machine.store.HasBuiltins := by
  obtain ⟨_, _, _, hBuiltins⟩ :=
    (Invariant.closed_preserved.along Invariant.keeps_hasBuiltins).reached
      (fun log => ⟨Invariant.closed_holds_initial log, .initial⟩)
      (fun _ hStage _ he => Invariant.closed_runs_root hStage he) h
  exact hBuiltins

namespace EvalM

/-- Computing in turn and keeping the last result is computing all of them. -/
theorem foldlM_eq_map_mapM {α β : Type} (f : α → EvalM β) (init : β) (as : List α) :
    as.foldlM (fun _ a => f a) init = (fun bs => bs.getLastD init) <$> as.mapM f := by
  induction as generalizing init with
  | nil => simp
  | cons a as ih =>
      simp only [List.foldlM_cons, List.mapM_cons, ih, map_eq_pure_bind, bind_assoc, pure_bind,
        List.getLastD_cons]

end EvalM

def evalOperands (c : Ceiling) (d : Int) (operands : List Expr) : EvalM (List Expr) :=
  operands.mapM fun a => evalAt c d a Store.root

namespace Expr

/-- The rule of an expression in the root: it evaluates operands one level deeper
and finishes with their values in a way that no level shows in. The expression is
one level higher than its operands. -/
structure Rule (e : Expr) (operands : List Expr) (finish : List Expr → EvalM Expr) : Prop where
  step : ∀ (c : Ceiling) (d : Int) {m : Machine}, m.store.HasBuiltins →
    (Level.under c d).step e Store.root m = (evalOperands c (d + 1) operands >>= finish) m
  keeps : ∀ {values : List Expr} {v : Expr} {m m' : Machine}, m.store.HasBuiltins →
    finish values m = .ok v m' → m'.store.HasBuiltins
  height : ∀ {k : Int},
    (e.height : Int) ≤ k ↔ 0 ≤ k ∧ ∀ a ∈ operands, (a.height : Int) ≤ k - 1

namespace Rule
variable {e : Expr}

/-- A literal has no operands and is its own value. -/
theorem literal (hLeaf : e.tail = []) (hForm : e.form = .literal) : e.Rule [] fun _ => pure e where
  step := fun c d m _ => by simp [Level.step, hForm, evalOperands]
  keeps := by
    intro values v m m' hBuiltins h
    cases h
    exact hBuiltins
  height := by
    intro k
    rw [height_le_iff, hLeaf]

/-- A name has no operands and is looked up when its level is reached. -/
theorem symbol {x : Symbol} (hLeaf : e.tail = []) (hForm : e.form = .variable x) :
    e.Rule [] fun _ => EvalM.lookup Store.root x where
  step := fun c d m _ => by simp [Level.step, hForm, evalOperands]
  keeps := by
    intro values v m m' hBuiltins h
    rw [EvalM.lookup_apply] at h
    split at h
    · cases h
      exact hBuiltins
    · cases h
  height := by
    intro k
    rw [height_le_iff, hLeaf]

/-- All forms of a sequence stand one level deeper, and the last value is its value. -/
theorem sequence {args : List Expr} (hForm : e.form = .special .sequence args) (hArgs : args ≠ []) :
    e.Rule args fun values => pure (values.getLastD Expr.none) where
  step := by
    intro c d m _
    have hNonempty : args.isEmpty = false := by simpa using hArgs
    simp only [Level.step, hForm, Level.special, Level.sequence, hNonempty, Bool.false_eq_true,
      if_false, EvalM.foldlM_eq_map_mapM, map_eq_pure_bind]
    rfl
  keeps := by
    intro values v m m' hBuiltins h
    cases h
    exact hBuiltins
  height := by
    intro k
    rw [height_le_iff, (of_form_special hForm).1]

/-- The name of a definition is no operand. It is a leaf, so the value is at least
as high. -/
theorem define {name value : Expr} {x : Symbol} (hForm : e.form = .special .define [name, value])
    (hName : name.asSymbol? = some x) (hKeyword : x.isKeyword = false) :
    e.Rule [value] fun values => do
      EvalM.define Store.root x (values.headD Expr.none)
      return values.headD Expr.none where
  step := by
    intro c d m _
    simp [Level.step, hForm, Level.special, Level.define, hName, hKeyword, evalOperands]
    rfl
  keeps := by
    intro values v m m' hBuiltins h
    obtain ⟨_, m₁, hDefine, hReturn⟩ := EvalM.exists_of_bind h
    cases hReturn
    rw [EvalM.define_apply] at hDefine
    split at hDefine
    · cases hDefine
    · next hFree =>
        cases hDefine
        exact hBuiltins.bind (by simpa using hFree) _
  height := by
    intro k
    have hLeaf : name.tail = [] := by
      unfold asSymbol? at hName
      split at hName
      · assumption
      · cases hName
    rw [height_le_iff, (of_form_special hForm).1]
    simp only [List.mem_cons, List.not_mem_nil, or_false, forall_eq_or_imp, forall_eq,
      height_of_leaf hLeaf]
    omega

/-- The arguments of a builtin stand one level deeper; the builtin itself needs no
level. -/
theorem call {b : Builtin} {args : List Expr} (hForm : e.form = .call (.symbol b.symbol) args) :
    e.Rule args fun values => EvalM.ofExcept (b.run values) where
  step := by
    intro c d m hBuiltins
    have hFound : EvalM.lookup Store.root b.symbol m = .ok (.leaf (.procedure b)) m := by
      rw [EvalM.lookup_apply, hBuiltins.lookup? b]
    simp only [Level.step, hForm, Level.call]
    rw [EvalM.bind_of_ok hFound]
    rfl
  keeps := by
    intro values v m m' hBuiltins h
    cases hRun : b.run values with
    | ok r =>
        rw [hRun] at h
        cases h
        exact hBuiltins
    | error fault =>
        rw [hRun] at h
        cases h
  height := by
    intro k
    rw [height_le_iff, (of_form_call hForm).1]

end Rule

/-- Wherever the expression has a value in the root, it has this value under
exactly the ceilings that leave room for its height. -/
def Exact (e : Expr) : Prop :=
  ∀ {c : Ceiling} {d : Int} {v : Expr} {m m' : Machine}, m.store.HasBuiltins →
    evalAt c d e Store.root m = .ok v m' →
    m'.store.HasBuiltins ∧ ∀ (c' : Ceiling) (d' : Int),
      evalAt c' d' e Store.root m = .ok v m' ↔ (e.height : Int) ≤ c'.budget d'

/-- The operands have their values one after the other. Each leaves a store in
which the built-in procedures still have their names. -/
theorem Exact.evalOperands {c : Ceiling} {d : Int} {operands values : List Expr} {m m' : Machine}
    (hOperands : ∀ a ∈ operands, a.Exact) (hBuiltins : m.store.HasBuiltins)
    (h : PlotLang.evalOperands c d operands m = .ok values m') :
    m'.store.HasBuiltins ∧ ∀ (c' : Ceiling) (d' : Int),
      PlotLang.evalOperands c' d' operands m = .ok values m' ↔
        ∀ a ∈ operands, (a.height : Int) ≤ c'.budget d' := by
  induction operands generalizing m values with
  | nil =>
      cases h
      exact ⟨hBuiltins, fun c' d' => by simp [PlotLang.evalOperands, pure, EStateM.pure]⟩
  | cons a operands ih =>
      obtain ⟨hFirst, hRest⟩ := List.forall_mem_cons.mp hOperands
      cases values with
      | nil =>
          rw [PlotLang.evalOperands, List.mapM_cons] at h
          obtain ⟨_, _, _, h⟩ := EvalM.exists_of_bind h
          obtain ⟨_, _, _, h⟩ := EvalM.exists_of_bind h
          cases h
      | cons v values =>
          obtain ⟨m₁, hValue, hValues⟩ := EvalM.mapM_cons_eq_ok_iff.mp h
          obtain ⟨hAfter, hHeight⟩ := hFirst hBuiltins hValue
          obtain ⟨hEnd, hHeights⟩ := ih hRest hAfter hValues
          refine ⟨hEnd, fun c' d' => ?_⟩
          rw [List.forall_mem_cons, ← hHeight c' d', ← hHeights c' d']
          refine EvalM.mapM_cons_eq_ok_iff.trans ⟨?_, fun hBoth => ⟨m₁, hBoth⟩⟩
          -- Under the other ceiling the first operand has the same value and
          -- leaves the same machine, since its height is all that decides.
          rintro ⟨m₂, hOther, hOthers⟩
          have hRoom := ((hFirst hBuiltins hOther).2 c' d').mp hOther
          have hSame := (hHeight c' d').mpr hRoom
          cases hOther.symm.trans hSame
          exact ⟨hSame, hOthers⟩

/-- Evaluation has a value only below the ceiling. -/
theorem evalAt_eq_ok_iff {c : Ceiling} {d : Int} {e v : Expr} {s : ScopeId} {m m' : Machine} :
    evalAt c d e s m = .ok v m' ↔ 0 ≤ c.budget d ∧ (Level.under c d).step e s m = .ok v m' := by
  rw [evalAt_eq_step, Ceiling.budget, Int.sub_nonneg]
  by_cases hDepth : d ≤ c.levels
  · rw [if_pos hDepth, and_iff_right hDepth]
  · rw [if_neg hDepth]
    exact iff_of_false (fun h => by cases h) fun h => hDepth h.1

/-- An expression is exact if its operands are: it finishes in the same way under
every ceiling that its operands reach. -/
theorem Rule.exact {e : Expr} {operands : List Expr} {finish : List Expr → EvalM Expr}
    (hRule : e.Rule operands finish) (hOperands : ∀ a ∈ operands, a.Exact) : e.Exact := by
  intro c d v m m' hBuiltins h
  obtain ⟨_, hStep⟩ := evalAt_eq_ok_iff.mp h
  rw [hRule.step c d hBuiltins] at hStep
  obtain ⟨values, m₁, hValues, hFinish⟩ := EvalM.exists_of_bind hStep
  obtain ⟨hAfter, hHeights⟩ := Exact.evalOperands hOperands hBuiltins hValues
  refine ⟨hRule.keeps hAfter hFinish, fun c' d' => ?_⟩
  have hDeeper : c'.budget (d' + 1) = c'.budget d' - 1 := by
    simp only [Ceiling.budget]
    omega
  rw [evalAt_eq_ok_iff, hRule.step c' d' hBuiltins, hRule.height, ← hDeeper]
  refine and_congr_right fun _ => ⟨fun hOther => ?_, fun hRoom => ?_⟩
  · obtain ⟨values', m₂, hOthers, _⟩ := EvalM.exists_of_bind hOther
    exact ((Exact.evalOperands hOperands hBuiltins hOthers).2 c' (d' + 1)).mp hOthers
  · rw [EvalM.bind_of_ok ((hHeights c' (d' + 1)).mpr hRoom), hFinish]

/-- A form that no rule accepts has no value anywhere. -/
theorem Exact.of_forall_ne {e : Expr}
    (h : ∀ (c : Ceiling) (d : Int) (v : Expr) (m m' : Machine),
      (Level.under c d).step e Store.root m ≠ .ok v m') : e.Exact :=
  fun _ hValue => absurd (evalAt_eq_ok_iff.mp hValue).2 (h _ _ _ _ _)

/-- First-order code is exact. The induction is on the code, and forms that are
malformed in some way have no value to begin with. -/
theorem FirstOrder.exact {e : Expr} (he : e.FirstOrder) : e.Exact := by
  induction he with
  | leaf hLeaf hForm =>
      rcases hForm with hForm | ⟨x, hForm⟩
      · exact (Rule.literal hLeaf hForm).exact (List.forall_mem_nil _)
      · exact (Rule.symbol hLeaf hForm).exact (List.forall_mem_nil _)
  | @sequence e args hForm _ ih =>
      by_cases hArgs : args = []
      · refine Exact.of_forall_ne fun c d v m m' hStep => ?_
        simp only [Level.step, hForm, Level.special, Level.sequence, hArgs] at hStep
        cases hStep
      · exact (Rule.sequence hForm hArgs).exact ih
  | @define e name x values hForm hName _ ih =>
      rcases values with _ | ⟨value, _ | ⟨_, _⟩⟩
      · refine Exact.of_forall_ne fun c d v m m' hStep => ?_
        simp only [Level.step, hForm, Level.special, Level.define] at hStep
        cases hStep
      · cases hKeyword : x.isKeyword with
        | false => exact (Rule.define hForm hName hKeyword).exact ih
        | true =>
            refine Exact.of_forall_ne fun c d v m m' hStep => ?_
            simp only [Level.step, hForm, Level.special, Level.define, hName, hKeyword] at hStep
            cases hStep
      · refine Exact.of_forall_ne fun c d v m m' hStep => ?_
        simp only [Level.step, hForm, Level.special, Level.define] at hStep
        cases hStep
  | call hForm _ ih => exact (Rule.call hForm).exact ih

end Expr

/-- In every session, first-order code that has a value in the root under some
ceiling has this value under exactly the ceilings that leave room for its height,
and crosses every other one. -/
theorem Session.Reached.ceiling_exact {session : Session} (h : session.Reached) {e : Expr}
    (he : e.FirstOrder) {c₀ : Ceiling} {d₀ : Int} {v : Expr} {m : Machine}
    (hValue : evalAt c₀ d₀ e Store.root session.machine = .ok v m) (c : Ceiling) (d : Int) :
    ((∃ v' m', evalAt c d e Store.root session.machine = .ok v' m') ↔
      (e.height : Int) ≤ c.budget d) ∧
    ((e.height : Int) ≤ c.budget d → evalAt c d e Store.root session.machine = .ok v m) ∧
    (c.budget d < e.height →
      Outcome.isExhausted (evalAt c d e Store.root session.machine) = true) := by
  have hExact := (he.exact h.hasBuiltins hValue).2
  have hRoom {v' : Expr} {m' : Machine}
      (hValue' : evalAt c d e Store.root session.machine = .ok v' m') :
      (e.height : Int) ≤ c.budget d :=
    ((he.exact h.hasBuiltins hValue').2 c d).mp hValue'
  refine ⟨⟨?_, fun hHeight => ⟨v, m, (hExact c d).mpr hHeight⟩⟩, (hExact c d).mpr, fun hBelow => ?_⟩
  · rintro ⟨v', m', hValue'⟩
    exact hRoom hValue'
  · by_contra hNot
    have hFinished : Outcome.isExhausted (evalAt c d e Store.root session.machine) = false := by
      simpa using hNot
    have hEnough : c.budget d ≤ c₀.budget d₀ :=
      Int.le_of_lt (Int.lt_of_lt_of_le hBelow ((hExact c₀ d₀).mp hValue))
    have hSame := erase_evalAt_of_le e Store.root session.machine hEnough hFinished
    rw [hValue] at hSame
    cases hOutcome : evalAt c d e Store.root session.machine with
    | ok v' m' => exact absurd (hRoom hOutcome) (by omega)
    | error fault m' =>
        rw [hOutcome] at hSame
        cases hSame

/-- A sequence that defines a list and has it as its value is three levels high,
and the name of the definition adds none. -/
theorem Session.ceiling_exact_definition :
    let x : Symbol := ⟨"x", by decide⟩
    let definition := Expr.special .define [.symbol x, .listCall [.string "a"]]
    let e := Expr.special .sequence [definition, .symbol x]
    let machine := (Session.new 9).machine
    e.height = 3 ∧
      (∃ v m, evalAt (.exact 3) 0 e Store.root machine = .ok v m) ∧
      Outcome.isExhausted (evalAt (.exact 2) 0 e Store.root machine) = true := by
  intro x definition e machine
  have hString : (Expr.string "a").FirstOrder := .leaf rfl (.inl rfl)
  have hSymbol : (Expr.symbol x).FirstOrder := .leaf rfl (.inr ⟨x, rfl⟩)
  have hList : (Expr.listCall [.string "a"]).FirstOrder := by
    have hForm : (Expr.listCall [.string "a"]).form =
        .call (.symbol Builtin.list.symbol) [.string "a"] := rfl
    exact .call hForm (by simpa using hString)
  have hDefinition : definition.FirstOrder := .define (x := x) rfl rfl (by simpa using hList)
  have he : e.FirstOrder := by
    have hForm : e.form = .special .sequence [definition, .symbol x] := rfl
    exact .sequence hForm (by simpa using ⟨hDefinition, hSymbol⟩)
  obtain ⟨v, m, hValue⟩ : ∃ v m, evalAt (.exact 9) 0 e Store.root machine = .ok v m := by
    have hSucceeds : (EStateM.run' (evalAt (.exact 9) 0 e Store.root) machine).isSome = true := by
      decide +kernel
    unfold EStateM.run' EStateM.run at hSucceeds
    generalize evalAt (.exact 9) 0 e Store.root machine = outcome at hSucceeds ⊢
    cases outcome with
    | ok v m => exact ⟨v, m, rfl⟩
    | error fault m => cases hSucceeds
  have hHeight : e.height = 3 := by decide
  have hExact := Session.Reached.ceiling_exact (.new 9) he hValue
  exact ⟨hHeight, (hExact (.exact 3) 0).1.mpr (by rw [hHeight]; decide),
    (hExact (.exact 2) 0).2.2 (by rw [hHeight]; decide)⟩

end PlotLang
