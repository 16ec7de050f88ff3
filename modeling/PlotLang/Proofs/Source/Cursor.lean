import PlotLang.Proofs.Source.Recognition

/-! A stream is a cursor over the tokens of its text. Whatever is asked of it in
whatever order, the tokens that were taken, the one that was looked at and those
not yet read are always the tokens of the text. Looking ahead changes nothing
that is answered later, unless it meets the fault at the end of the text. The
fault is met once, behind all tokens, and after that the stream is at its end. -/
namespace PlotLang.TokenStream

inductive Operation where
  | peek
  | advance
  | parse
deriving DecidableEq

/-- What a stream answers: a token, a form, or that there is none; or it fails. -/
inductive Answer where
  | token (t : Option Token)
  | form (e : Option Expr)
  | fault (e : SyntaxError)

/-- The answer that a computation gives, and the stream that it leaves. -/
def Answer.ofResult {α : Type} (answer : α → Answer) :
    EStateM.Result SyntaxError TokenStream α → Answer × TokenStream
  | .ok a s => (answer a, s)
  | .error e s => (.fault e, s)

/-- The stream is at its end, as the answer tells. -/
def Answer.IsEnd (a : Answer) : Prop := a = .token none ∨ a = .form none

/-- The tokens that the reading of a form goes through: all up to the one that
completes the form or cannot stand where it does. -/
def formTokens (r : ReadState) : List Token → List Token
  | [] => []
  | t :: rest =>
    match readToken r t with
    | .more r' => t :: formTokens r' rest
    | .done _ => [t]

namespace Operation

def perform (s : TokenStream) : Operation → Answer × TokenStream
  | peek => Answer.ofResult .token (TokenStream.peek s)
  | advance => Answer.ofResult .token (TokenStream.advance s)
  | parse => Answer.ofResult .form (TokenStream.parse s)

def taken (s : TokenStream) : Operation → List Token
  | peek => []
  | advance => s.pending.take 1
  | parse => formTokens {} s.pending

end Operation

/-- An operation that was performed, with the tokens that it took. -/
structure Step where
  operation : Operation
  taken : List Token
  answer : Answer

/-- The operations in turn, and the stream after the last of them. -/
def run (s : TokenStream) : List Operation → List Step × TokenStream
  | [] => ([], s)
  | op :: ops =>
    let (answer, s') := op.perform s
    let (steps, last) := run s' ops
    (⟨op, op.taken s, answer⟩ :: steps, last)

def otherAnswers (steps : List Step) : List Answer :=
  (steps.filter (·.operation != .peek)).map Step.answer

/-- The answer tells which tokens were taken: the token itself, or those of the
form. Where the reading of a form fails, the answer does not tell. -/
def Step.Accounted : Step → Prop
  | ⟨.peek, taken, _⟩ => taken = []
  | ⟨.advance, taken, .token t⟩ => taken = t.toList
  | ⟨.advance, taken, _⟩ => taken = []
  | ⟨.parse, taken, .form (some e)⟩ => ∃ δ : Derivation, δ.tokens = taken ∧ δ.expr? = some e
  | ⟨.parse, taken, .form none⟩ => taken = []
  | ⟨.parse, _, _⟩ => True

theorem otherAnswers_cons {step : Step} (h : step.operation ≠ .peek) (steps : List Step) :
    otherAnswers (step :: steps) = step.answer :: otherAnswers steps := by
  simp [otherAnswers, h]

theorem run_cons (s : TokenStream) (op : Operation) (ops : List Operation) :
    s.run (op :: ops) =
      (⟨op, op.taken s, (op.perform s).1⟩ :: ((op.perform s).2.run ops).1,
        ((op.perform s).2.run ops).2) := rfl

/-! What the reading of a form can end in. -/

/-- An open string is found by the lexer only; no token can cause this fault. -/
theorem readToken_ne_unclosedString (r : ReadState) (t : Token) (position : Nat) :
    readToken r t ≠ .done (.error (.unclosedString position)) := by
  have hLexeme (l : Lexeme) : readToken r l.token ≠ .done (.error (.unclosedString position)) := by
    rw [readToken_lexeme]
    split
    · simp
    · split
      · simp
      · exact supply_ne_error _ _ _
  cases t with
  | word text => exact hLexeme (.word text)
  | string lexeme => exact hLexeme (.string lexeme)
  | opening =>
      rw [readToken]
      split <;> simp
  | closing =>
      rw [readToken]
      split
      · exact supply_ne_error _ _ _
      · split
        · simp
        · exact supply_ne_error _ _ _

/-- Reading a form ends at a token, or behind all of them: in the fault of the
text if there is one, and else in the middle of a form or in front of one. -/
inductive Finishes (fault : Option SyntaxError) (tokens taken : List Token) :
    EStateM.Result SyntaxError TokenStream (Option Expr) → Prop where
  | form {e : Expr} {rest : List Token} (hSplit : taken ++ rest = tokens) :
      Finishes fault tokens taken (.ok (some e) { lookahead := none, unread := rest, fault })
  | refused {e : SyntaxError} {rest : List Token} (hSplit : taken ++ rest = tokens)
      (hOwn : ∀ position, e ≠ .unclosedString position) :
      Finishes fault tokens taken (.error e { lookahead := none, unread := rest, fault })
  | fault {e : SyntaxError} (hAll : taken = tokens) (hFault : fault = some e) :
      Finishes fault tokens taken (.error e exhausted)
  | unmatched (hAll : taken = tokens) (hFault : fault = none) :
      Finishes fault tokens taken (.error .unmatchedOpening exhausted)
  | ended (hAll : taken = tokens) (hFault : fault = none) :
      Finishes fault tokens taken (.ok none exhausted)

/-- The induction is on the tokens. -/
theorem readForm_finishes (fault : Option SyntaxError) (r : ReadState) (tokens : List Token) :
    Finishes fault tokens (formTokens r tokens) (readForm fault r tokens) := by
  induction tokens generalizing r with
  | nil =>
      unfold readForm
      cases fault with
      | some e => exact .fault rfl rfl
      | none =>
          dsimp only
          split
          · exact .unmatched rfl rfl
          · exact .ended rfl rfl
  | cons t tokens ih =>
      rw [readForm_cons, formTokens]
      cases hRead : readToken r t with
      | done answer =>
          cases answer with
          | ok e => exact .form rfl
          | error e =>
              refine .refused rfl fun position hOwn => ?_
              exact readToken_ne_unclosedString r t position (hOwn ▸ hRead)
      | more r' =>
          have hLater := ih r'
          dsimp only [resume]
          generalize readForm fault r' tokens = result at hLater ⊢
          cases hLater with
          | form hSplit => exact .form (congrArg (List.cons t) hSplit)
          | refused hSplit hOwn => exact .refused (congrArg (List.cons t) hSplit) hOwn
          | fault hAll hFault => exact .fault (congrArg (List.cons t) hAll) hFault
          | unmatched hAll hFault => exact .unmatched (congrArg (List.cons t) hAll) hFault
          | ended hAll hFault => exact .ended (congrArg (List.cons t) hAll) hFault

/-- A form is read from the pending tokens, which begin with the one that was
looked at. -/
theorem parse_finishes (s : TokenStream) :
    Finishes s.fault s.pending (Operation.parse.taken s) (TokenStream.parse s) :=
  readForm_finishes s.fault {} s.pending

/-! What is taken. -/

/-- One operation takes its tokens from those that were pending and leaves the
others. -/
theorem taken_append_pending (s : TokenStream) (op : Operation) :
    op.taken s ++ (op.perform s).2.pending = s.pending := by
  obtain ⟨lookahead, unread, fault⟩ := s
  cases op with
  | peek | advance => cases lookahead <;> cases unread <;> cases fault <;> rfl
  | parse =>
      have hEnd := parse_finishes ⟨lookahead, unread, fault⟩
      rw [Operation.perform]
      generalize TokenStream.parse ⟨lookahead, unread, fault⟩ = result at hEnd ⊢
      cases hEnd with
      | form hSplit | refused hSplit _ => exact hSplit
      | fault hAll _ | unmatched hAll _ | ended hAll _ => exact (List.append_nil _).trans hAll

/-- Tokens taken and tokens pending always make up those of the start. -/
theorem run_taken_append_pending (s : TokenStream) (ops : List Operation) :
    (s.run ops).1.flatMap Step.taken ++ (s.run ops).2.pending = s.pending := by
  induction ops generalizing s with
  | nil => rfl
  | cons op ops ih =>
      rw [run_cons, List.flatMap_cons, List.append_assoc, ih, taken_append_pending]

/-- The answer of one operation tells what it took. -/
theorem accounted_perform (s : TokenStream) (op : Operation) :
    Step.Accounted ⟨op, op.taken s, (op.perform s).1⟩ := by
  have hTaken := taken_append_pending s op
  cases op with
  | peek => rfl
  | advance =>
      obtain ⟨lookahead, unread, fault⟩ := s
      cases lookahead <;> cases unread <;> cases fault <;> rfl
  | parse =>
      cases hParse : TokenStream.parse s with
      | error e s' => simp [Operation.perform, hParse, Answer.ofResult, Step.Accounted]
      | ok form s' =>
          simp only [Operation.perform, hParse, Answer.ofResult] at hTaken ⊢
          cases form with
          | none =>
              obtain ⟨hPending, _⟩ := eq_nil_of_readForm ReadState.begun_nil hParse
              have hNothing : s.pending = [] := hPending
              exact (List.append_eq_nil_iff.mp (hTaken.trans hNothing)).1
          | some e =>
              obtain ⟨δ, rest, hPending, he, rfl⟩ :=
                derivation_of_readForm ReadState.begun_nil hParse
              have hSame : Operation.parse.taken s ++ rest = δ.tokens ++ rest :=
                hTaken.trans hPending
              exact ⟨δ, (List.append_cancel_right hSame).symm, he⟩

theorem run_accounted (s : TokenStream) (ops : List Operation) :
    ∀ step ∈ (s.run ops).1, step.Accounted := by
  induction ops generalizing s with
  | nil => simp [run]
  | cons op ops ih =>
      rw [run_cons]
      exact List.forall_mem_cons.mpr ⟨accounted_perform s op, ih _⟩

/-! Looking ahead. A token that was looked at is put back in front of the others
to see that nothing else has changed. -/

/-- The stream as if nothing had been looked at. -/
def rewound (s : TokenStream) : TokenStream :=
  { lookahead := none, unread := s.pending, fault := s.fault }

/-- All operations but looking ahead begin with the token that was looked at, as
if it had not been. -/
theorem perform_rewound (s : TokenStream) {op : Operation} (h : op ≠ .peek) :
    op.perform s.rewound = op.perform s := by
  obtain ⟨lookahead, unread, fault⟩ := s
  cases op with
  | peek => exact absurd rfl h
  | advance => cases lookahead <;> rfl
  | parse => rfl

/-- Looking ahead moves a token to another place, and nothing else. At the end of
a text with a fault it would meet the fault. -/
theorem rewound_peek {s : TokenStream} (h : s.fault = none) :
    (Operation.peek.perform s).2.rewound = s.rewound := by
  obtain ⟨lookahead, unread, fault⟩ := s
  cases h
  cases lookahead <;> cases unread <;> rfl

/-- Without a fault no operation brings one up. -/
theorem perform_fault {s : TokenStream} (h : s.fault = none) (op : Operation) :
    (op.perform s).2.fault = none := by
  obtain ⟨lookahead, unread, fault⟩ := s
  cases h
  cases op with
  | peek | advance => cases lookahead <;> cases unread <;> rfl
  | parse =>
      have hEnd := parse_finishes ⟨lookahead, unread, none⟩
      rw [Operation.perform]
      generalize TokenStream.parse ⟨lookahead, unread, none⟩ = result at hEnd ⊢
      cases hEnd <;> rfl

/-- All operations but looking ahead are answered as if the others were left out.
The induction is on the operations; the two streams differ in what was looked at. -/
theorem otherAnswers_run {s s' : TokenStream} (hSame : s.rewound = s'.rewound)
    (h : s.fault = none) (ops : List Operation) :
    otherAnswers (s.run ops).1 = otherAnswers (s'.run (ops.filter (· != .peek))).1 := by
  induction ops generalizing s s' with
  | nil => rfl
  | cons op ops ih =>
      by_cases hPeek : op = .peek
      · subst hPeek
        have hNext := ih ((rewound_peek h).trans hSame) (perform_fault h .peek)
        exact hNext
      · have hPerform : op.perform s = op.perform s' := by
          rw [← perform_rewound s hPeek, hSame, perform_rewound s' hPeek]
        have hNext := ih (congrArg (fun p => p.2.rewound) hPerform) (perform_fault h op)
        have hKept : (op != Operation.peek) = true := by simpa using hPeek
        have hFilter : (op :: ops).filter (· != .peek) = op :: ops.filter (· != .peek) :=
          List.filter_cons_of_pos hKept
        rw [hFilter, run_cons, run_cons, otherAnswers_cons hPeek, otherAnswers_cons hPeek, hNext,
          hPerform]

/-- What is looked at is what is taken next. -/
theorem advance_peek {s : TokenStream} (h : s.fault = none) :
    (Operation.advance.perform (Operation.peek.perform s).2).1 = (Operation.peek.perform s).1 := by
  obtain ⟨lookahead, unread, fault⟩ := s
  cases h
  cases lookahead <;> cases unread <;> rfl

theorem run_fault {s : TokenStream} (h : s.fault = none) (ops : List Operation) :
    (s.run ops).2.fault = none := by
  induction ops generalizing s with
  | nil => exact h
  | cons op ops ih => exact ih (perform_fault h op)

/-! The fault at the end of the text. -/

/-- The fault is not met, or met by one operation: it is the one that takes the
last of the tokens. The end of the text is told after it and only then. -/
def MetOnce (e : SyntaxError) (tokens : List Token) (steps : List Step) : Prop :=
  (∀ step ∈ steps, step.answer ≠ .fault e ∧ ¬ step.answer.IsEnd) ∨
    ∃ before step after, steps = before ++ step :: after ∧ step.answer = .fault e ∧
      (before ++ [step]).flatMap Step.taken = tokens ∧
      (∀ earlier ∈ before, earlier.answer ≠ .fault e ∧ ¬ earlier.answer.IsEnd) ∧
      ∀ later ∈ after, later.answer.IsEnd

/-- At the end there is no token and no form, however often one asks. -/
theorem perform_exhausted (op : Operation) :
    (op.perform exhausted).1.IsEnd ∧ (op.perform exhausted).2 = exhausted := by
  cases op with
  | peek | advance => exact ⟨.inl rfl, rfl⟩
  | parse => exact ⟨.inr rfl, rfl⟩

theorem run_exhausted (ops : List Operation) :
    ∀ step ∈ (exhausted.run ops).1, step.answer.IsEnd := by
  induction ops with
  | nil => simp [run]
  | cons op ops ih =>
      obtain ⟨hAnswer, hAfter⟩ := perform_exhausted op
      rw [run_cons, hAfter]
      exact List.forall_mem_cons.mpr ⟨hAnswer, ih⟩

/-- An operation meets the fault and ends the stream, or leaves the fault where it
is and does not tell the end. -/
theorem perform_of_fault {s : TokenStream} {position : Nat}
    (h : s.fault = some (.unclosedString position)) (op : Operation) :
    ((op.perform s).1 = .fault (.unclosedString position) ∧ (op.perform s).2 = exhausted) ∨
      (((op.perform s).1 ≠ .fault (.unclosedString position) ∧ ¬ (op.perform s).1.IsEnd) ∧
        (op.perform s).2.fault = some (.unclosedString position)) := by
  obtain ⟨lookahead, unread, fault⟩ := s
  cases h
  have hToken (t : Token) : Answer.token (some t) ≠ .fault (.unclosedString position) ∧
      ¬ (Answer.token (some t)).IsEnd := by simp [Answer.IsEnd]
  cases op with
  | peek | advance =>
      cases lookahead with
      | some t => exact .inr ⟨hToken t, rfl⟩
      | none =>
          cases unread with
          | nil => exact .inl ⟨rfl, rfl⟩
          | cons t unread => exact .inr ⟨hToken t, rfl⟩
  | parse =>
      have hEnd := parse_finishes ⟨lookahead, unread, some (.unclosedString position)⟩
      rw [Operation.perform]
      generalize TokenStream.parse _ = result at hEnd ⊢
      cases hEnd with
      | form _ => exact .inr ⟨by simp [Answer.ofResult, Answer.IsEnd], rfl⟩
      | refused _ hOwn => exact .inr ⟨by simp [Answer.ofResult, Answer.IsEnd, hOwn], rfl⟩
      | fault _ hFault =>
          cases hFault
          exact .inl ⟨rfl, rfl⟩
      | unmatched _ hFault | ended _ hFault => cases hFault

/-- The induction is on the operations, up to the one that meets the fault. -/
theorem run_metOnce {s : TokenStream} {position : Nat}
    (h : s.fault = some (.unclosedString position)) (ops : List Operation) :
    MetOnce (.unclosedString position) s.pending (s.run ops).1 := by
  induction ops generalizing s with
  | nil => exact .inl (by simp [run])
  | cons op ops ih =>
      have hTaken := taken_append_pending s op
      rw [run_cons]
      obtain ⟨hAnswer, hAfter⟩ | ⟨hUnmet, hKept⟩ := perform_of_fault h op
      · rw [hAfter] at hTaken ⊢
        have hAll : op.taken s = s.pending := (List.append_nil _).symm.trans hTaken
        refine .inr ⟨[], _, _, rfl, hAnswer, ?_, List.forall_mem_nil _, run_exhausted ops⟩
        simpa using hAll
      · obtain hNone | ⟨before, step, after, hSteps, hMet, hAll, hBefore, hLater⟩ := ih hKept
        · exact .inl (List.forall_mem_cons.mpr ⟨hUnmet, hNone⟩)
        · refine .inr ⟨_ :: before, step, after, congrArg (List.cons _) hSteps, hMet, ?_,
            List.forall_mem_cons.mpr ⟨hUnmet, hBefore⟩, hLater⟩
          rw [List.cons_append, List.flatMap_cons, hAll, hTaken]

/-- What was taken, what was looked at and what is unread are together the tokens
of the text, and each answer tells what was taken. In a text without fault the
other operations do not notice whether tokens are looked at, and what is looked
at is what is taken next. A fault of the text is met at most once, behind all
tokens, and the stream has ended then. -/
theorem run_cursor {source : String} {ops : List Operation} {steps : List Step} {s : TokenStream}
    (hRun : (ofSource source).run ops = (steps, s)) :
    (s.lookahead.toList.length ≤ 1 ∧
      steps.flatMap Step.taken ++ s.lookahead.toList ++ s.unread = (lex source).1 ∧
      ∀ step ∈ steps, step.Accounted) ∧
    ((lex source).2 = none →
      (∀ ops' : List Operation, ops.filter (· != .peek) = ops'.filter (· != .peek) →
        otherAnswers steps = otherAnswers ((ofSource source).run ops').1) ∧
      (Operation.advance.perform (Operation.peek.perform s).2).1 =
        (Operation.peek.perform s).1) ∧
    ∀ e, (lex source).2 = some e → MetOnce e (lex source).1 steps := by
  obtain ⟨rfl, rfl⟩ := Prod.mk.inj hRun.symm
  refine ⟨⟨?_, ?_, run_accounted _ ops⟩, fun hNone => ⟨fun ops' hOthers => ?_, ?_⟩,
    fun e he => ?_⟩
  · cases ((ofSource source).run ops).2.lookahead <;> simp
  · rw [List.append_assoc]
    exact run_taken_append_pending (ofSource source) ops
  · rw [otherAnswers_run rfl hNone ops, hOthers, ← otherAnswers_run rfl hNone ops']
  · exact advance_peek (run_fault hNone ops)
  · obtain ⟨position, rfl⟩ := lexFrom_fault he
    exact run_metOnce he ops

/-- A text that is complete, and one in which a string is open behind a form. -/
theorem run_cursor_empty_form :
    ((lex "()").2 = none ∧ ∃ steps s,
      (ofSource "()").run [.peek, .advance, .peek, .parse] = (steps, s) ∧
        otherAnswers steps = otherAnswers ((ofSource "()").run [.advance, .parse]).1) ∧
    (lex "() (\"b").2 = some (.unclosedString 4) ∧ ∃ steps s,
      (ofSource "() (\"b").run [.peek, .parse, .parse, .advance, .parse] = (steps, s) ∧
        steps.map Step.answer = [.token (some .opening), .form (some Expr.none),
          .fault (.unclosedString 4), .token none, .form none] ∧
        MetOnce (.unclosedString 4) [.opening, .closing, .opening] steps := by
  have hComplete : lex "()" = ([.opening, .closing], none) := by decide +kernel
  have hOpen : lex "() (\"b" = ([.opening, .closing, .opening], some (.unclosedString 4)) := by
    decide +kernel
  refine ⟨⟨congrArg Prod.snd hComplete, ?_⟩, congrArg Prod.snd hOpen, ?_⟩
  · obtain ⟨⟨steps, s⟩, hRun⟩ :
        ∃ r, (ofSource "()").run [.peek, .advance, .peek, .parse] = r := ⟨_, rfl⟩
    exact ⟨steps, s, hRun, ((run_cursor hRun).2.1 (congrArg Prod.snd hComplete)).1 _ rfl⟩
  · obtain ⟨⟨steps, s⟩, hRun⟩ :
        ∃ r, (ofSource "() (\"b").run [.peek, .parse, .parse, .advance, .parse] = r := ⟨_, rfl⟩
    have hMet := (run_cursor hRun).2.2 _ (congrArg Prod.snd hOpen)
    rw [hOpen] at hMet
    refine ⟨steps, s, hRun, ?_, hMet⟩
    rw [ofSource, hOpen] at hRun
    cases hRun
    rfl

end PlotLang.TokenStream
