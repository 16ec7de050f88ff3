import PlotLang.Proofs.Machine
import PlotLang.Proofs.Source.Leading
import PlotLang.Session

/-! Texts are evaluated while they are read. Nothing is lost against reading all
forms first: the leading forms of a text are evaluated in turn, and a fault in
the text behind them counts only after all of them have a value. -/
namespace PlotLang

open EStateM (Result)

/-- Evaluates forms one after the other in a scope. The value is that of the last
form, or the given one if there is none. -/
def evalForms (limit : Int) (s : ScopeId) (forms : List Expr) (last : Expr) : EvalM Expr :=
  forms.foldlM (fun _ form => evaluate limit form s) last

/-- What a text comes to, given what its leading forms came to and the fault
behind them. -/
def Outcome.concluded (fault : Option SyntaxError) :
    Result EvalError Machine Expr → Result Failure Machine Expr
  | .ok v m =>
    match fault with
    | none => .ok v m
    | some e => .error (.reading e) m
  | .error e m => .error (.evaluation e) m

/-- The value at the end of an evaluation, if it has one. -/
def Outcome.value? {ε α : Type} : Result ε Machine α → Option α
  | .ok v _ => some v
  | .error _ _ => none

section Forms
variable {limit : Int} {s : ScopeId} {form last v : Expr} {forms : List Expr} {m m' : Machine}

/-- The value of a form is forgotten when the next one has one. -/
theorem evalForms_cons_of_ok (h : evaluate limit form s m = .ok v m') :
    evalForms limit s (form :: forms) last m = evalForms limit s forms v m' :=
  EvalM.bind_of_ok h

/-- Behind a form that fails nothing is evaluated. -/
theorem evalForms_cons_of_error {e : EvalError} (h : evaluate limit form s m = .error e m') :
    evalForms limit s (form :: forms) last m = .error e m' :=
  EvalM.bind_of_error h

/-- Forms may be evaluated in two parts, the second one after the first. -/
theorem evalForms_append_of_ok {before : List Expr}
    (h : evalForms limit s before last m = .ok v m') (forms : List Expr) :
    evalForms limit s (before ++ forms) last m = evalForms limit s forms v m' := by
  unfold evalForms
  rw [List.foldlM_append]
  exact EvalM.bind_of_ok h

/-- A first part that fails decides. -/
theorem evalForms_append_of_error {before : List Expr} {e : EvalError}
    (h : evalForms limit s before last m = .error e m') (forms : List Expr) :
    evalForms limit s (before ++ forms) last m = .error e m' := by
  unfold evalForms
  rw [List.foldlM_append]
  exact EvalM.bind_of_error h

end Forms

/-- Reading a form, evaluating it and going on is evaluating all forms that can
be read. The induction is on the tokens that are left. -/
theorem evalStream_eq (limit : Int) (s : ScopeId) (stream : TokenStream) (last : Expr)
    (m : Machine) :
    evalStream limit s stream last m =
      Outcome.concluded stream.readForms.2 (evalForms limit s stream.readForms.1 last m) := by
  fun_induction evalStream limit s stream last m with
  | case1 stream last m e rest hParse =>
      rw [TokenStream.readForms_of_parse_error hParse]
      rfl
  | case2 stream last m rest hParse =>
      rw [TokenStream.readForms_of_parse_end hParse]
      rfl
  | case3 stream last m form rest hParse e m' hEval =>
      rw [TokenStream.readForms_of_parse hParse, evalForms_cons_of_error hEval]
      rfl
  | case4 stream last m form rest hParse v m' hEval ih =>
      rw [TokenStream.readForms_of_parse hParse, evalForms_cons_of_ok hEval]
      exact ih

namespace Session

/-- The session at the end of an evaluation, with its answer. -/
def concluded (session : Session) :
    Result Failure Machine Expr → Except Failure Expr × Session
  | .ok v machine => (.ok v, { session with machine })
  | .error e machine => (.error e, { session with machine })

/-- A text is its leading forms and then its fault. -/
theorem eval_eq (session : Session) (source : String) :
    session.eval source =
      session.concluded (Outcome.concluded (TokenStream.ofSource source).readForms.2
        (evalForms session.limit Store.root (TokenStream.ofSource source).readForms.1 Expr.none
          session.machine)) := by
  rw [← evalStream_eq]
  rfl

/-- A text that can be read is evaluated as its forms. -/
theorem eval_of_readSource {session : Session} {source : String} {forms : List Expr}
    (h : readSource source = .ok forms) :
    session.eval source = session.concluded (Outcome.concluded none
      (evalForms session.limit Store.root forms Expr.none session.machine)) := by
  have hRead := readSource_eq source
  rw [h] at hRead
  rw [session.eval_eq]
  cases hFault : (TokenStream.ofSource source).readForms.2 with
  | some e =>
      rw [hFault] at hRead
      cases hRead
  | none =>
      rw [hFault] at hRead
      cases hRead
      rfl

/-- What is computed from the derivation of a text is true of its value. -/
theorem exists_of_derives (session : Session) (test : Expr → Bool) {source : String}
    {δs : List Derivation} (h : Derives source δs)
    (hValue : ((Derivation.exprs? δs).any fun forms => (Outcome.value? (evalForms session.limit
      Store.root forms Expr.none session.machine)).any test) = true) :
    ∃ v, (session.eval source).1 = .ok v ∧ test v = true := by
  obtain ⟨forms, hForms, hValue⟩ := (Option.any_eq_true ..).mp hValue
  rw [eval_of_readSource (readSource_eq_ok_iff.mpr ⟨δs, h, hForms⟩)]
  generalize evalForms session.limit Store.root forms Expr.none session.machine = result at hValue ⊢
  cases result with
  | ok v m => exact ⟨v, rfl, hValue⟩
  | error e m => cases hValue

/-- Evaluating a text evaluates its leading forms in turn. If one of them fails,
the text fails with it, whatever comes behind. If all have values, the fault in
the text decides, and without one the value is the last. In particular, a text
that can be read is evaluated as its forms. -/
theorem eval_leading_forms (session : Session) (source : String) :
    ∃ forms, Leading source forms ∧ (∀ forms', Leading source forms' → forms' = forms) ∧
      (∀ all, readSource source = .ok all → all = forms) ∧
      (∀ before form after, forms = before ++ form :: after → ∀ v m,
        evalForms session.limit Store.root before Expr.none session.machine = .ok v m →
        ∀ e m', evaluate session.limit form Store.root m = .error e m' →
          session.eval source = (.error (.evaluation e), { session with machine := m' })) ∧
      ∀ v m, evalForms session.limit Store.root forms Expr.none session.machine = .ok v m →
        (∀ e, readSource source = .error e →
          session.eval source = (.error (.reading e), { session with machine := m })) ∧
        ∀ all, readSource source = .ok all →
          session.eval source = (.ok v, { session with machine := m }) := by
  have hLeading := leading_readForms source
  have hEval := session.eval_eq source
  have hRead := readSource_eq source
  generalize (TokenStream.ofSource source).readForms = answer at hLeading hEval hRead
  obtain ⟨forms, fault⟩ := answer
  refine ⟨forms, hLeading, fun forms' h' => h'.eq hLeading, ?_, ?_, ?_⟩
  · intro all hAll
    cases fault with
    | none => exact (Except.ok.inj (hRead.symm.trans hAll)).symm
    | some e => cases hRead.symm.trans hAll
  · intro before form after hSplit v m hBefore e m' hForm
    rw [hEval, hSplit, evalForms_append_of_ok hBefore, evalForms_cons_of_error hForm]
    rfl
  · intro v m hForms
    rw [hEval, hForms]
    constructor
    · intro e hError
      cases fault with
      | none => cases hRead.symm.trans hError
      | some e' =>
          cases hRead.symm.trans hError
          rfl
    · intro all hAll
      cases fault with
      | none => rfl
      | some e => cases hRead.symm.trans hAll

/-- A form that fails keeps what the form in front of it defined. The parenthesis
and the open string behind it are never met. -/
theorem eval_leading_forms_unbound :
    let x : Symbol := ⟨"x", by decide⟩
    let y : Symbol := ⟨"y", by decide⟩
    let session : Session := { machine := { store := .empty }, limit := 1 }
    let source := "(define x \"a\") y x) \"b"
    (lex source).2 = some (.unclosedString 19) ∧
      session.eval source = (.error (.evaluation (.unbound y)),
        { session with machine := session.machine.defined Store.root x (.string "a") }) := by
  intro x y session source
  let define := Expr.node (.symbol Keyword.define.symbol) [.leaf (.symbol x), .string "a"]
  have hLeading : Leading source [define, .leaf (.symbol y), .leaf (.symbol x)] := by
    let δs : List Derivation :=
      [.list (.word "define") [.atom (.word "x"), .atom (.string "\"a\"")], .atom (.word "y"),
        .atom (.word "x")]
    have hTokens : (lex source).1 = Derivation.tokensAll δs ++ [.closing] := by decide +kernel
    have hStop (δ : Derivation) (later : List Token) : [Token.closing] ≠ δ.tokens ++ later := by
      obtain ⟨t, ts, hδ, ht⟩ := δ.exists_tokens_cons
      rw [hδ]
      exact fun h => ht (List.cons.inj h).1.symm
    exact ⟨δs, [.closing], ⟨hTokens, hStop⟩, rfl⟩
  obtain ⟨forms, _, hUnique, _, hFails, _⟩ := session.eval_leading_forms source
  have hForms : forms = [define] ++ .leaf (.symbol y) :: [.leaf (.symbol x)] :=
    (hUnique _ hLeading).symm
  exact ⟨by decide +kernel, hFails _ _ _ hForms _ _ rfl _ _ rfl⟩

end Session
end PlotLang
