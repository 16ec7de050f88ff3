import PlotLang.Proofs.Reading
import PlotLang.Proofs.Source.Lines

/-! A session does not notice where its texts are cut. Two texts on lines of
their own are evaluated as one after the other, as long as the first can be read
to its end: a fault in the first would take the second with it. -/
namespace PlotLang

open EStateM (Result)

def Failure.movedTo (place : Nat) : Failure → Failure
  | .reading e => .reading (e.movedTo place)
  | .evaluation e => .evaluation e

/-- The value from which forms start shows only if there are no forms. -/
theorem evalForms_of_ne_nil {forms : List Expr} (h : forms ≠ []) (limit : Int) (s : ScopeId)
    (last last' : Expr) : evalForms limit s forms last = evalForms limit s forms last' := by
  cases forms with
  | nil => exact absurd rfl h
  | cons form forms => rfl

/-- Where a fault is reported shows in the report alone. -/
theorem Session.concluded_movedTo (session : Session) (place : Nat) (fault : Option SyntaxError)
    (outcome : Result EvalError Machine Expr) :
    session.concluded (Outcome.concluded (fault.map (SyntaxError.movedTo place)) outcome) =
      ((session.concluded (Outcome.concluded fault outcome)).1.mapError (Failure.movedTo place),
        (session.concluded (Outcome.concluded fault outcome)).2) := by
  cases outcome with
  | ok v m => cases fault <;> rfl
  | error e m => rfl

/-- The forms of a text behind forms that came to a value. The value stays if the
text has no forms, and is forgotten otherwise. -/
theorem Session.eval_behind (session : Session) (source : String) (v : Expr) (place : Nat) :
    let behind := session.concluded (Outcome.concluded
      ((TokenStream.ofSource source).readForms.2.map (SyntaxError.movedTo place))
      (evalForms session.limit Store.root (TokenStream.ofSource source).readForms.1 v
        session.machine))
    let alone := session.eval source
    behind.2 = alone.2 ∧
      (∀ e, alone.1 = .error e → behind.1 = .error (e.movedTo place)) ∧
      ∀ w, alone.1 = .ok w →
        (readSource source = .ok [] → behind.1 = .ok v) ∧
        (readSource source ≠ .ok [] → behind.1 = .ok w) := by
  intro behind alone
  have hAlone : alone = _ := session.eval_eq source
  have hRead := readSource_eq source
  have hBehind : behind = _ := session.concluded_movedTo place _ _
  generalize (TokenStream.ofSource source).readForms = answer at hAlone hBehind hRead
  obtain ⟨forms, fault⟩ := answer
  by_cases hNone : forms = []
  · subst hNone
    rw [hBehind, hAlone]
    cases fault with
    | none =>
        have hError (e : Failure) : Except.ok Expr.none ≠ Except.error e := by simp
        exact ⟨rfl, fun e he => absurd he (hError e), fun w _ =>
          ⟨fun _ => rfl, fun hSome => absurd hRead hSome⟩⟩
    | some e =>
        have hValue (w : Expr) : Except.error (Failure.reading e) ≠ .ok w := by simp
        refine ⟨rfl, ?_, fun w hw => absurd hw (hValue w)⟩
        intro e' he
        cases he
        rfl
  · have hSome : readSource source ≠ .ok [] := by
      intro hEmpty
      cases fault with
      | none => exact hNone (Except.ok.inj (hRead.symm.trans hEmpty))
      | some e => cases hRead.symm.trans hEmpty
    rw [evalForms_of_ne_nil hNone _ _ v Expr.none, ← hAlone] at hBehind
    rw [hBehind]
    refine ⟨rfl, ?_, ?_⟩
    · intro e he
      rw [he]
      rfl
    · intro w hw
      rw [hw]
      exact ⟨fun hEmpty => absurd hEmpty hSome, fun _ => rfl⟩

/-- Evaluating two texts that stand on lines of their own is evaluating the first
and, if it has a value, the second in the session that the first leaves. Only the
position of an open string is counted from the beginning of the whole. -/
theorem Session.eval_append_line (session : Session) {first : String} {forms : List Expr}
    (hFirst : readSource first = .ok forms) (second : String) :
    let whole := session.eval (first ++ "\n" ++ second)
    let started := session.eval first
    let finished := started.2.eval second
    (∀ e, started.1 = .error e → whole = started) ∧
    ∀ v, started.1 = .ok v →
      whole.2 = finished.2 ∧
      (∀ e, finished.1 = .error e → ∃ place, whole.1 = .error (e.movedTo place)) ∧
      ∀ w, finished.1 = .ok w →
        (readSource second = .ok [] → whole.1 = .ok v) ∧
        (readSource second ≠ .ok [] → whole.1 = .ok w) := by
  intro whole started finished
  obtain ⟨place, hForms⟩ := readForms_append_line hFirst second
  have hWhole : whole = _ := session.eval_eq (first ++ "\n" ++ second)
  have hStarted : started = _ := eval_of_readSource hFirst
  rw [hForms] at hWhole
  cases hRun : evalForms session.limit Store.root forms Expr.none session.machine with
  | error e m =>
      rw [evalForms_append_of_error hRun] at hWhole
      rw [hRun] at hStarted
      constructor
      · intro _ _
        exact hWhole.trans hStarted.symm
      · intro v hv
        rw [hStarted] at hv
        cases hv
  | ok v m =>
      rw [evalForms_append_of_ok hRun] at hWhole
      rw [hRun] at hStarted
      constructor
      · intro e he
        rw [hStarted] at he
        cases he
      · intro v' hv'
        have hFinished : finished = Session.eval { session with machine := m } second :=
          congrArg (fun answer => Session.eval answer.2 second) hStarted
        rw [hStarted] at hv'
        cases hv'
        rw [hWhole, hFinished]
        obtain ⟨hState, hError, hValue⟩ :=
          Session.eval_behind { session with machine := m } second v place
        exact ⟨hState, fun e he => ⟨place, hError e he⟩, hValue⟩

/-- The first text ends in a comment that holds a double quote, and the second
uses what the first defines. -/
theorem Session.eval_append_line_comment :
    let x : Symbol := ⟨"x", by decide⟩
    let session : Session := { machine := { store := .empty }, limit := 1 }
    let define := Expr.node (.symbol Keyword.define.symbol) [.leaf (.symbol x), .string "a"]
    readSource "(define x \"a\");\"(" = .ok [define] ∧
      (session.eval ("(define x \"a\");\"(" ++ "\n" ++ "x")).1 = .ok (.string "a") := by
  intro x session define
  have hFirst : readSource "(define x \"a\");\"(" = .ok [define] := by
    let δs : List Derivation :=
      [.list (.word "define") [.atom (.word "x"), .atom (.string "\"a\"")]]
    have hDerives : Derives "(define x \"a\");\"(" δs := by decide +kernel
    exact readSource_eq_ok_iff.mpr ⟨δs, hDerives, rfl⟩
  have hSecond : readSource "x" = .ok [.leaf (.symbol x)] := by
    have hDerives : Derives "x" [.atom (.word "x")] := by decide +kernel
    exact readSource_eq_ok_iff.mpr ⟨_, hDerives, rfl⟩
  have hStarted : (session.eval "(define x \"a\");\"(").1 = .ok (.string "a") := by
    rw [eval_of_readSource hFirst]
    rfl
  have hFinished : ((session.eval "(define x \"a\");\"(").2.eval "x").1 = .ok (.string "a") := by
    rw [eval_of_readSource hSecond, eval_of_readSource hFirst]
    rfl
  have hSome : readSource "x" ≠ .ok [] := by simp [hSecond]
  obtain ⟨_, _, hValue⟩ := (session.eval_append_line hFirst "x").2 _ hStarted
  exact ⟨hFirst, (hValue _ hFinished).2 hSome⟩

end PlotLang
