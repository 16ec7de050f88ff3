import PlotLang.Proofs.Application
import PlotLang.Proofs.Part
import PlotLang.Proofs.Source.RoundTrip

/-! Parameter lists and procedures as texts. The reader makes the first parameter
the head of a list, no parameters the missing value, and the one parameter `list`
the empty list. The parameters are found again in each case, and nothing else
passes for a parameter list but the symbol `list` by itself. So the text of a
procedure is a form that makes the procedure again. -/
namespace PlotLang

/-! What the tokens of a text can denote. -/

/-- The atom is denoted by a token: a symbol does not look like a numeral, and a
string holds no double quote. -/
def Atom.IsDenoted : Atom → Prop
  | .symbol s => readNumber? s.name = Option.none
  | .string text => '"' ∉ text.toList
  | .number _ => True
  | _ => False

/-- A token denotes an atom that tokens can denote. -/
theorem Lexeme.isDenoted {l : Lexeme} (hLexed : l.token.IsLexed) {a : Atom}
    (h : l.atom? = some a) : a.IsDenoted := by
  cases l with
  | word text =>
      have hName : isSymbolName text = true := hLexed
      have hWord : Atom.ofWord? text = some a := h
      obtain ⟨x, rfl⟩ | ⟨body, rfl⟩ | ⟨s, rfl, rfl⟩ := Atom.kind_of_ofWord? hWord
      · trivial
      · exact absurd hWord (Atom.ofWord?_ne_string hName body)
      · exact (Atom.ofWord?_eq_symbol_iff.mp hWord).1
  | string lexeme =>
      obtain ⟨body, hBody, hQuote⟩ := hLexed
      have hWord : Atom.ofWord? lexeme = some a := h
      rw [hBody, Atom.ofWord?_quoted] at hWord
      cases hWord
      simpa [Atom.IsDenoted] using hQuote

namespace Expr

/-- A form whose heads are denoted by tokens. -/
inductive IsDenoted : Expr → Prop where
  | none : IsDenoted Expr.none
  | list : IsDenoted (Expr.list [])
  | node {a : Atom} {es : List Expr} (hHead : a.IsDenoted) (hChildren : ∀ e ∈ es, IsDenoted e) :
      IsDenoted (Expr.node a es)

/-- A list of the reader has a denoted head and denoted children. -/
theorem IsDenoted.ofListForm {a : Atom} {es : List Expr} (ha : a.IsDenoted)
    (hes : ∀ e ∈ es, e.IsDenoted) : (ofListForm a es).IsDenoted := by
  cases es with
  | nil =>
      rw [Expr.ofListForm]
      split_ifs
      · exact .list
      · exact .node ha hes
  | cons e es => exact .node ha hes

theorem IsDenoted.child {e c : Expr} (he : e.IsDenoted) (hc : c ∈ e.tail) : c.IsDenoted := by
  cases he with
  | none | list => cases hc
  | node _ hChildren => exact hChildren c hc

/-- The reader makes no plot objects. -/
theorem IsDenoted.properties_eq_nil {e : Expr} (he : e.IsDenoted) : e.properties = [] := by
  cases he <;> rfl

/-- All parts of a form that was read were read. -/
theorem IsDenoted.part {o e : Expr} (h : o.Part e) (he : e.IsDenoted) : o.IsDenoted := by
  induction h with
  | self => exact he
  | child hChild _ ih => exact ih (he.child hChild)
  | property hProperty _ _ =>
      rw [he.properties_eq_nil] at hProperty
      cases hProperty

/-- A form that some text holds, by itself or inside another form. -/
def IsRead (e : Expr) : Prop :=
  ∃ source, ∃ form ∈ (TokenStream.ofSource source).readForms.1, e.Part form

end Expr

namespace Derivation

private theorem isDenoted_exprs {δs : List Derivation} {es : List Expr}
    (hEach : ∀ δ ∈ δs, ∀ e, (∀ t ∈ δ.tokens, t.IsLexed) → δ.expr? = some e → e.IsDenoted)
    (hLexed : ∀ t ∈ tokensAll δs, t.IsLexed) (hes : exprs? δs = some es) :
    ∀ e ∈ es, e.IsDenoted := by
  induction δs generalizing es with
  | nil =>
      cases hes
      simp
  | cons δ δs ih =>
      obtain ⟨hFirst, hRest⟩ := List.forall_mem_cons.mp hEach
      obtain ⟨hHere, hLater⟩ := List.forall_mem_append.mp hLexed
      obtain ⟨e, es, he, hTrees, rfl⟩ := exprs?_cons.mp hes
      exact List.forall_mem_cons.mpr ⟨hFirst e hHere he, ih hRest hLater hTrees⟩

/-- Trees of derivations from tokens of the lexer are made of what tokens can denote. -/
theorem isDenoted {δ : Derivation} {e : Expr} (hLexed : ∀ t ∈ δ.tokens, t.IsLexed)
    (he : δ.expr? = some e) : e.IsDenoted := by
  induction δ using Derivation.induct generalizing e with
  | atom l =>
      obtain ⟨a, ha, rfl⟩ := Option.map_eq_some_iff.mp he
      exact .node (l.isDenoted (hLexed _ (by simp [tokens])) ha) (by simp)
  | empty =>
      cases he
      exact .none
  | list head children ih =>
      obtain ⟨a, es, ha, hes, rfl⟩ := expr?_list.mp he
      have hInside : ∀ t ∈ tokensAll children, t.IsLexed :=
        fun t ht => hLexed t (by simp [tokens, ht])
      exact .ofListForm (head.isDenoted (hLexed _ (by simp [tokens])) ha)
        (isDenoted_exprs (fun δ hδ e => ih δ hδ) hInside hes)

end Derivation

/-- The forms of a stream were all made from its tokens. -/
theorem TokenStream.isDenoted_of_readForms {stream : TokenStream}
    (hLexed : ∀ t ∈ stream.pending, t.IsLexed) : ∀ e ∈ stream.readForms.1, e.IsDenoted := by
  fun_induction readForms stream with
  | case1 => simp
  | case2 => simp
  | case3 stream form rest hParse forms fault hRest ih =>
      obtain ⟨δ, rest, hPending, he, rfl⟩ := derivation_of_readForm ReadState.begun_nil hParse
      have hSplit : stream.pending = δ.tokens ++ rest := hPending
      rw [hSplit] at hLexed
      obtain ⟨hHere, hLater⟩ := List.forall_mem_append.mp hLexed
      rw [hRest] at ih
      exact List.forall_mem_cons.mpr ⟨δ.isDenoted hHere he, ih hLater⟩

theorem Expr.IsRead.isDenoted {e : Expr} (h : e.IsRead) : e.IsDenoted := by
  obtain ⟨source, form, hForm, hPart⟩ := h
  have hLexed : ∀ t ∈ (TokenStream.ofSource source).pending, t.IsLexed := lex_isLexed source
  exact .part hPart (TokenStream.isDenoted_of_readForms hLexed form hForm)

/-- Parts of the forms of a text are read forms. -/
theorem Expr.isRead_of_readSource {source : String} {forms : List Expr} {e o : Expr}
    (h : readSource source = .ok forms) (he : e ∈ forms) (ho : o.Part e) : o.IsRead := by
  refine ⟨source, e, ?_, ho⟩
  unfold readSource at h
  split at h
  · next hForms =>
      cases h
      rwa [hForms]
  · cases h

/-! Parameter lists. -/

def Expr.parameters : List Symbol → Expr
  | [] => Expr.none
  | x :: xs => Expr.ofListForm (.symbol x) (xs.map Expr.symbol)

def parametersText (xs : List Symbol) : String :=
  "(" ++ " ".intercalate (xs.map Symbol.name) ++ ")"

/-- Parameters that a procedure may have and that a text can name. -/
def FormalsWritten (xs : List Symbol) : Prop :=
  FormalsValid xs ∧ ∀ x ∈ xs, readNumber? x.name = none

namespace Expr

theorem toList_parametersText_cons (x : Symbol) (xs : List Symbol) :
    (parametersText (x :: xs)).toList =
      '(' :: (x.name.toList ++ ((xs.flatMap fun y => ' ' :: y.name.toList) ++ [')'])) := by
  rw [parametersText, String.toList_append, String.toList_append, List.map_cons,
    toList_intercalate_cons (c := ' ') (by simp), List.flatMap_map]
  simp

/-- A parameter list is written so that it is read as itself. -/
theorem spelled_parameters {xs : List Symbol}
    (h : ∀ x ∈ xs, (Atom.symbol x).IsPrintable) :
    (parameters xs).Spelled (parametersText xs).toList := by
  cases xs with
  | nil => exact ⟨.empty, Spells.closing.opening, rfl⟩
  | cons x xs =>
      obtain ⟨hFirst, hRest⟩ := List.forall_mem_cons.mp h
      have hOthers : ∀ e ∈ xs.map Expr.symbol, e.Spelled (write true e).toList := by
        intro e he
        obtain ⟨y, hy, rfl⟩ := List.mem_map.mp he
        exact (IsPrintable.leaf (hRest y hy)).spelled_write
      have hText : (display (node (.symbol x) (xs.map Expr.symbol))).toList =
          (parametersText (x :: xs)).toList := by
        have hWrite : ∀ y ∈ xs, ' ' :: (write true (Expr.symbol y)).toList = ' ' :: y.name.toList :=
          fun y hy => congrArg (' ' :: String.toList ·) (write_leaf (hRest y hy))
        rw [toList_display hFirst, toList_parametersText_cons, List.flatMap_map,
          List.flatMap_congr hWrite]
        rfl
      exact hText ▸ spelled_display hFirst hOthers

/-- An expression whose text spells its tokens is read back. -/
theorem Spelled.readSource {e : Expr} {text : String} (h : e.Spelled text.toList) :
    readSource text = .ok [e] := by
  obtain ⟨δ, hSpells, he⟩ := h
  have hTokens : Derivation.tokensAll [δ] = δ.tokens := List.append_nil _
  have hDerives : Derives text [δ] := by
    rw [Derives, hTokens]
    exact hSpells.lex
  exact readSource_eq_ok_iff.mpr
    ⟨[δ], hDerives, Derivation.exprs?_cons.mpr ⟨e, [], he, rfl, rfl⟩⟩

end Expr

/-! The parameters that a form declares. -/

/-- A new parameter is accepted if it is no keyword and was not there. -/
theorem addFormal_symbol {xs : List Symbol} {x : Symbol} (h : FormalsValid (xs ++ [x])) :
    addFormal xs (Expr.symbol x) = .ok (xs ++ [x]) := by
  obtain ⟨hDistinct, hNames⟩ := h
  have hName : x.isKeyword = false := hNames x (by simp)
  have hNew : x ∉ xs := fun hx => (List.nodup_append.mp hDistinct).2.2 x hx x (by simp) rfl
  simp [addFormal, Expr.asSymbol?, Expr.symbol, Expr.leaf, hName, hNew]

/-- A valid list of parameters is accepted one by one. -/
theorem foldlM_addFormal {before xs : List Symbol} (h : FormalsValid (before ++ xs)) :
    (xs.map Expr.symbol).foldlM addFormal before = .ok (before ++ xs) := by
  induction xs generalizing before with
  | nil => exact congrArg Except.ok (List.append_nil before).symm
  | cons x xs ih =>
      have hSplit : before ++ x :: xs = before ++ [x] ++ xs := by simp
      rw [hSplit] at h ⊢
      have hFirst : FormalsValid (before ++ [x]) :=
        ⟨(List.nodup_append.mp h.1).1, fun y hy => h.2 y (List.mem_append_left _ hy)⟩
      rw [List.map_cons, List.foldlM_cons, addFormal_symbol hFirst]
      exact ih h

/-- The form that a parameter list is read as gives the list back, the empty list
and that of the one parameter `list` included. -/
theorem parseFormals_parameters {xs : List Symbol} (h : FormalsValid xs) :
    parseFormals (.parameters xs) = .ok xs := by
  cases xs with
  | nil => rfl
  | cons x xs =>
      have hFold : ((x :: xs).map Expr.symbol).foldlM addFormal [] = .ok (x :: xs) :=
        foldlM_addFormal h
      cases xs with
      | nil =>
          rw [Expr.parameters, List.map_nil, Expr.ofListForm]
          split_ifs with hList
          · cases hList
            rfl
          · exact hFold
      | cons y xs => exact hFold

/-- A form that was read and is a symbol has no properties, and its name is not
that of a number. -/
theorem Expr.IsDenoted.eq_symbol {e : Expr} {x : Symbol} (he : e.IsDenoted)
    (h : e.asSymbol? = some x) : e = .symbol x ∧ readNumber? x.name = Option.none := by
  cases he with
  | none | list => cases h
  | @node a es hHead _ =>
      cases es with
      | nil =>
          cases a with
          | symbol s =>
              cases h
              exact ⟨rfl, hHead⟩
          | _ => cases h
      | cons e es => cases a <;> cases h

/-- A candidate is a symbol and becomes a parameter, or the form is malformed. -/
theorem addFormal_cases (xs : List Symbol) {c : Expr} (hc : c.IsDenoted) :
    (∃ x, (c = .symbol x ∧ readNumber? x.name = none) ∧ addFormal xs c = .ok (xs ++ [x])) ∨
      ∃ cause, addFormal xs c = .error (.malformed cause) := by
  unfold addFormal
  split
  · exact .inr ⟨_, rfl⟩
  · next x hSymbol =>
      split_ifs
      · exact .inr ⟨_, rfl⟩
      · exact .inr ⟨_, rfl⟩
      · exact .inl ⟨x, hc.eq_symbol hSymbol, rfl⟩

/-- The same of all candidates in turn. The induction is on the candidates. -/
theorem foldlM_addFormal_cases (before : List Symbol) {es : List Expr}
    (hes : ∀ e ∈ es, e.IsDenoted) :
    (∃ xs, (es = xs.map Expr.symbol ∧ ∀ x ∈ xs, readNumber? x.name = none) ∧
      es.foldlM addFormal before = .ok (before ++ xs)) ∨
      ∃ cause, es.foldlM addFormal before = .error (.malformed cause) := by
  induction es generalizing before with
  | nil => exact .inl ⟨[], ⟨rfl, by simp⟩, congrArg Except.ok (List.append_nil before).symm⟩
  | cons e es ih =>
      obtain ⟨hFirst, hRest⟩ := List.forall_mem_cons.mp hes
      rw [List.foldlM_cons]
      obtain ⟨x, ⟨rfl, hx⟩, hAdded⟩ | ⟨cause, hCause⟩ := addFormal_cases before hFirst
      · rw [hAdded]
        obtain ⟨xs, ⟨rfl, hxs⟩, hFold⟩ | hCause := ih (before ++ [x]) hRest
        · refine .inl ⟨x :: xs, ⟨rfl, List.forall_mem_cons.mpr ⟨hx, hxs⟩⟩, ?_⟩
          exact hFold.trans (by simp)
        · exact .inr hCause
      · rw [hCause]
        exact .inr ⟨cause, rfl⟩

/-- Only the symbol `list` by itself is not what its text between parentheses is
read as. -/
theorem Expr.node_eq_parameters (x : Symbol) (xs : List Symbol) :
    node (.symbol x) (xs.map Expr.symbol) = parameters (x :: xs) ∨
      node (.symbol x) (xs.map Expr.symbol) = .symbol Builtin.list.symbol := by
  cases xs with
  | nil =>
      by_cases hList : x = Builtin.list.symbol
      · exact .inr (congrArg Expr.symbol hList)
      · have hOther : Atom.symbol x ≠ .symbol Builtin.list.symbol := by simpa using hList
        exact .inl (if_neg hOther).symm
  | cons y xs => exact .inl rfl

/-- A form of a text declares parameters if it is read from their list, or if it
is the symbol `list`, and is malformed otherwise. -/
theorem parseFormals_cases {params : Expr} (h : params.IsDenoted) :
    (∃ xs, parseFormals params = .ok xs ∧ (∀ x ∈ xs, readNumber? x.name = none) ∧
      (params = .parameters xs ∨ params = .symbol Builtin.list.symbol)) ∨
      ∃ cause, parseFormals params = .error (.malformed cause) := by
  cases h with
  | none => exact .inl ⟨[], rfl, by simp, .inl rfl⟩
  | list => exact .inl ⟨[Builtin.list.symbol], rfl, by decide, .inl rfl⟩
  | @node a es hHead hChildren =>
      have hParse : parseFormals (Expr.node a es) = (Expr.leaf a :: es).foldlM addFormal [] := by
        cases a with
        | symbol s | string t | number x => rfl
        | _ => exact hHead.elim
      have hCandidates : ∀ e ∈ Expr.leaf a :: es, e.IsDenoted :=
        List.forall_mem_cons.mpr ⟨.node hHead (by simp), hChildren⟩
      rw [hParse]
      obtain ⟨xs, ⟨hSymbols, hNames⟩, hFold⟩ | hCause := foldlM_addFormal_cases [] hCandidates
      · refine .inl ⟨xs, hFold, hNames, ?_⟩
        cases xs with
        | nil => cases hSymbols
        | cons x xs =>
            rw [List.map_cons] at hSymbols
            obtain ⟨hFirst, rfl⟩ := List.cons.inj hSymbols
            cases hFirst
            exact Expr.node_eq_parameters x xs
      · exact .inr hCause

/-- Names of parameters come from the text, where a numeral would have been read
as a number. -/
theorem names_of_parseFormals {params : Expr} {xs : List Symbol} (h : params.IsDenoted)
    (hFormals : parseFormals params = .ok xs) : ∀ x ∈ xs, readNumber? x.name = none := by
  obtain ⟨ys, hSome, hNames, _⟩ | ⟨cause, hCause⟩ := parseFormals_cases h
  · cases hSome.symm.trans hFormals
    exact hNames
  · cases hCause.symm.trans hFormals

/-! Procedures. -/

/-- Several forms are put in an implicit sequence. -/
theorem bodyOf_several {forms : List Expr} (h : 2 ≤ forms.length) :
    bodyOf forms = .special .sequence forms := by
  match forms with
  | _ :: _ :: _ => rfl

/-- The implicit sequence is a form that could have been read. -/
theorem Expr.IsDenoted.bodyOf {forms : List Expr} (hForms : ∀ e ∈ forms, e.IsDenoted) :
    (bodyOf forms).IsDenoted := by
  rcases bodyOf_cases forms with hOne | hAll
  · exact hForms _ hOne
  · rw [hAll]
    have hSequence : readNumber? Keyword.sequence.name = Option.none := by decide
    exact .node hSequence hForms

/-- Nothing of the atom is lost when it is written, if it was denoted by a token:
for a number, six digits must be enough. -/
def Atom.IsKept : Atom → Prop
  | .symbol _ | .string _ => True
  | .number x => Atom.ofWord? (Atom.numberText x) = some (.number x)
  | _ => False

/-- What was denoted by a token can be written so that the token comes back, as
far as nothing is lost. -/
theorem Atom.IsDenoted.isPrintable {a : Atom} (h : a.IsDenoted) (hKept : a.IsKept) :
    a.IsPrintable := by
  cases a with
  | symbol s | string text => exact h
  | number x => exact hKept
  | _ => exact h

/-- A form that was read can be written and read again if none of its numbers
loses digits. -/
theorem Expr.IsDenoted.isPrintable {e : Expr} (h : e.IsDenoted)
    (hKept : e.Everywhere fun o => o.head.IsKept) : e.IsPrintable := by
  induction h with
  | none | list => exact (hKept _ .self).elim
  | node hHead _ ih =>
      exact .node (hHead.isPrintable (hKept _ .self)) fun e he => ih e he (hKept.child he)

/-- The text of a procedure is that of the form that makes it. -/
theorem Expr.spelled_lambda {c : Closure} {body : Expr}
    (hFormals : ∀ x ∈ c.formals, (Atom.symbol x).IsPrintable) (hBody : body.IsPrintable) :
    (special .lambda [.parameters c.formals, body]).Spelled (lambda c body).display.toList := by
  obtain ⟨δ, hParams, hFirst⟩ := spelled_parameters hFormals
  obtain ⟨δ', hWritten, hSecond⟩ := hBody.spelled_write
  have hText : (lambda c body).display.toList =
      '(' :: (Keyword.lambda.name.toList ++ (' ' :: (parametersText c.formals).toList ++
        (' ' :: (write true body).toList ++ [')']))) := by
    have hDisplay : (lambda c body).display =
        "(" ++ ("lambda " ++ parametersText c.formals ++ " " ++ write true body) ++ ")" := by
      simp [lambda, display, node, write, writeAll, headWords, Closure.text, parametersText]
    simp [hDisplay, Keyword.name]
  have hExprs : Derivation.exprs? [δ, δ'] = some [.parameters c.formals, body] := by
    simp [Derivation.exprs?, hFirst, hSecond]
  have hBlank (cs : List Char) : Delimited (' ' :: cs) := by
    have : isWordChar ' ' = false := by decide
    simp [Delimited, this]
  have hClosing : Delimited [')'] := by simp [Delimited, isWordChar, isDelimiter]
  refine ⟨.list (.word Keyword.lambda.name) [δ, δ'], ?_,
    Derivation.expr?_list.mpr ⟨.symbol Keyword.lambda.symbol, _, by decide +kernel, hExprs, rfl⟩⟩
  rw [hText]
  have hRest := (hWritten.blank (c := ' ') (by decide)).append .closing hClosing
  have hInside := (hParams.blank (c := ' ') (by decide)).append hRest (hBlank _)
  have hAll := ((Spells.word Keyword.lambda.symbol.valid).append hInside (hBlank _)).opening
  simpa [Derivation.tokens, Derivation.tokensAll, Keyword.symbol, Lexeme.token] using hAll

/-- The form of a procedure does nothing but draw an identity. -/
theorem Level.lambda_eq_ok {params : Expr} {formals : List Symbol}
    (h : parseFormals params = .ok formals) (form : Expr) (forms : List Expr) (s : ScopeId)
    (m : Machine) :
    Level.lambda (params :: form :: forms) s m =
      .ok (.lambda ⟨m.store.newClosure.1, formals, s⟩ (bodyOf (form :: forms))) m.minted :=
  EvalM.bind_of_ok (congrArg (EvalM.ofExcept · m) h)

/-- A procedure was made from its parameter list and at least one form. -/
theorem Level.of_lambda_eq_ok {args : List Expr} {s : ScopeId} {m m' : Machine} {c : Closure}
    {body : Expr} (h : Level.lambda args s m = .ok (.lambda c body) m') :
    ∃ params form forms, args = params :: form :: forms ∧
      parseFormals params = .ok c.formals ∧ body = bodyOf (form :: forms) := by
  match args with
  | params :: form :: forms =>
      obtain ⟨formals, _, hFormals, h⟩ := EvalM.exists_of_bind h
      cases hParse : parseFormals params with
      | error e =>
          rw [hParse] at hFormals
          cases hFormals
      | ok xs =>
          rw [hParse] at hFormals
          cases hFormals
          cases h
          exact ⟨params, form, forms, rfl, hParse, rfl⟩
  | [] | [_] => cases h

/-- One level is enough to make a procedure, so any limit that is not negative
allows it. -/
theorem evaluate_lambda {limit : Int} (hLimit : 0 ≤ limit) {params : Expr} {formals : List Symbol}
    (hFormals : parseFormals params = .ok formals) (body : Expr) (s : ScopeId) (m : Machine) :
    evaluate limit (.special .lambda [params, body]) s m =
      .ok (.lambda ⟨m.store.newClosure.1, formals, s⟩ body) m.minted := by
  have hLevels := (Ceiling.levels_ofLimit_nonneg_iff limit).mpr hLimit
  rw [evaluate, evalAt_eq_step, if_pos hLevels, Level.step, Expr.form_special]
  exact Level.lambda_eq_ok hFormals body [] s m

/-- A procedure that was made from a text has one form as its body, or a sequence of
several. If the body can be written without loss, the text of the procedure is read
as one form. In every scope and under every limit that allows a level, the form makes
a procedure of the same parameters and body. Parameters are found in the form that
their list is read as; of all other forms only the symbol `list` is taken, for itself. -/
theorem readSource_procedure :
    (∀ args s m c body m', (Expr.special .lambda args).IsRead →
      Level.lambda args s m = .ok (.lambda c body) m' →
      body.Everywhere (fun o => o.head.IsKept) →
      (∃ params forms, args = params :: forms ∧ parseFormals params = .ok c.formals ∧
        (∀ form, forms = [form] → body = form) ∧
        (2 ≤ forms.length → body = .special .sequence forms)) ∧
      ∃ form, readSource (Expr.lambda c body).display = .ok [form] ∧
        ∀ limit ≥ 0, ∀ s m, ∃ c' m', evaluate limit form s m = .ok (.lambda c' body) m' ∧
          c'.formals = c.formals ∧ c'.scope = s) ∧
    (∀ xs, FormalsWritten xs → ∃ params,
      readSource (parametersText xs) = .ok [params] ∧ parseFormals params = .ok xs) ∧
    parseFormals (.symbol Builtin.list.symbol) = .ok [Builtin.list.symbol] ∧
    ∀ params, params.IsRead → params ≠ .symbol Builtin.list.symbol →
      (∀ xs, FormalsWritten xs → readSource (parametersText xs) ≠ .ok [params]) →
      ∃ cause, parseFormals params = .error (.malformed cause) := by
  have hList (xs : List Symbol) (hNames : ∀ x ∈ xs, readNumber? x.name = none) :
      readSource (parametersText xs) = .ok [.parameters xs] :=
    (Expr.spelled_parameters hNames).readSource
  refine ⟨?_, ?_, rfl, ?_⟩
  · intro args s m c body m' hRead hMade hKept
    obtain ⟨params, form, forms, rfl, hFormals, rfl⟩ := Level.of_lambda_eq_ok hMade
    have hArgs : ∀ e ∈ params :: form :: forms, e.IsDenoted := fun e he => hRead.isDenoted.child he
    obtain ⟨hParams, hForms⟩ := List.forall_mem_cons.mp hArgs
    have hBody : (bodyOf (form :: forms)).IsPrintable :=
      (Expr.IsDenoted.bodyOf hForms).isPrintable hKept
    have hNames : ∀ x ∈ c.formals, readNumber? x.name = none :=
      names_of_parseFormals hParams hFormals
    have hOne (only : Expr) (h : form :: forms = [only]) : bodyOf (form :: forms) = only := by
      rw [h]
      rfl
    refine ⟨⟨params, form :: forms, rfl, hFormals, hOne, bodyOf_several⟩,
      _, (Expr.spelled_lambda hNames hBody).readSource, fun limit hLimit s m => ?_⟩
    have hAgain := parseFormals_parameters (parseFormals_valid hFormals)
    exact ⟨_, _, evaluate_lambda hLimit hAgain _ s m, rfl, rfl⟩
  · intro xs hxs
    exact ⟨_, hList xs hxs.2, parseFormals_parameters hxs.1⟩
  · intro params hRead hOther hNone
    obtain ⟨xs, hFormals, hNames, hParams | hSymbol⟩ | hCause := parseFormals_cases hRead.isDenoted
    · have hWritten : FormalsWritten xs := ⟨parseFormals_valid hFormals, hNames⟩
      exact absurd (hParams ▸ hList xs hNames) (hNone xs hWritten)
    · exact absurd hSymbol hOther
    · exact hCause

/-- The one parameter is `list`, and the body has two forms; a number is no
parameter list. -/
theorem readSource_procedure_list :
    let list := Builtin.list.symbol
    let forms := [.number 2.5, .symbol list]
    let body := Expr.special .sequence forms
    (Expr.special .lambda (.list [] :: forms)).IsRead ∧
    body.Everywhere (fun o => o.head.IsKept) ∧
    (∃ form, readSource "(lambda (list) (begin 2.5 list))" = .ok [form] ∧
      ∀ limit ≥ 0, ∀ s m, ∃ c m', evaluate limit form s m = .ok (.lambda c body) m' ∧
        c.formals = [list] ∧ c.scope = s) ∧
    (Expr.number 2.5).IsRead ∧
    ∃ cause, parseFormals (.number 2.5) = .error (.malformed cause) := by
  intro list forms body
  have hNumber : Atom.ofWord? "2.5" = some (.number 2.5) := by decide +kernel
  have hDigits : Atom.numberText 2.5 = "2.5" := by decide +kernel
  let δs : List Derivation := [.list (.word "lambda")
    [.list (.word "list") [], .atom (.word "2.5"), .atom (.word "list")]]
  have hTree : Derivation.exprs? δs = some [Expr.special .lambda (.list [] :: forms)] := by
    have hLambda : Atom.ofWord? "lambda" = some (.symbol Keyword.lambda.symbol) := by
      decide +kernel
    have hList : Atom.ofWord? "list" = some (.symbol list) := by decide +kernel
    simp [δs, forms, list, Derivation.exprs?, Derivation.expr?, Lexeme.atom?, Expr.ofListForm,
      hNumber, hLambda, hList, Expr.special, Expr.number, Expr.symbol]
  have hSource : readSource "(lambda (list) 2.5 list)" = _ :=
    readSource_eq_ok_iff.mpr ⟨δs, by decide +kernel, hTree⟩
  have hRead : (Expr.special .lambda (.list [] :: forms)).IsRead :=
    Expr.isRead_of_readSource hSource List.mem_cons_self .self
  have hNumberRead : (Expr.number 2.5).IsRead :=
    Expr.isRead_of_readSource hSource List.mem_cons_self
      (.child (List.mem_cons_of_mem _ List.mem_cons_self) .self)
  have hKept : body.Everywhere (fun o => o.head.IsKept) := by
    have hFirst : (Atom.number 2.5).IsKept := by rwa [Atom.IsKept, hDigits]
    have hForms : ∀ e ∈ forms, e.Everywhere (fun o => o.head.IsKept) :=
      List.forall_mem_cons.mpr ⟨.node hFirst (by simp),
        List.forall_mem_singleton.mpr (.node trivial (by simp))⟩
    exact .node trivial hForms
  refine ⟨hRead, hKept, ?_, hNumberRead, ?_⟩
  · let m : Machine := { store := Store.empty }
    have hMade : Level.lambda (.list [] :: forms) 0 m =
        .ok (.lambda ⟨0, [list], 0⟩ body) m.minted := Level.lambda_eq_ok rfl _ _ 0 m
    have hText : (Expr.lambda ⟨0, [list], 0⟩ body).display = "(lambda (list) (begin 2.5 list))" := by
      simp [body, forms, list, Expr.lambda, Expr.special, Expr.number, Expr.symbol, Expr.display,
        Expr.write, Expr.writeAll, Expr.node, Expr.leaf, Expr.headWords, Expr.isWord,
        Expr.wordText, Atom.text, Closure.text, Keyword.symbol, Keyword.name, Builtin.symbol,
        Builtin.name, hDigits]
    exact hText ▸ (readSource_procedure.1 _ _ _ _ _ _ hRead hMade hKept).2
  · have hOther : Expr.number 2.5 ≠ .symbol list := fun h => by cases h
    refine readSource_procedure.2.2.2 _ hNumberRead hOther fun xs hxs hSame => ?_
    have hParams : Expr.parameters xs = .number 2.5 := by
      simpa using (Expr.spelled_parameters hxs.2).readSource.symm.trans hSame
    have hTaken : parseFormals (.number 2.5) = .ok xs := hParams ▸ parseFormals_parameters hxs.1
    cases hTaken

end PlotLang
