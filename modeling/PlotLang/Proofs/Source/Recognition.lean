import PlotLang.Proofs.Source.Derivation
import PlotLang.Source.Reader

/-! The reader accepts a text exactly if its tokens can be derived from the
grammar, and what it reads are the trees of the derivation. The reader keeps the
forms that are open on a stack. For one direction, the tokens of a derivation are
followed through the reader; for the other, the open forms stand for beginnings
of derivations, and every token extends them. -/
namespace PlotLang

open EStateM (Result)

/-- Children are collected in reverse, and closing puts them in order. -/
theorem OpenForm.close_eq (a : Atom) (es : List Expr) :
    OpenForm.close ⟨a, es.reverse⟩ = Expr.ofListForm a es := by
  cases es with
  | nil =>
      cases a with
      | symbol s => simp [close, Expr.ofListForm]
      | _ => simp [close, Expr.ofListForm, Expr.leaf, Expr.node]
  | cons e es =>
      have hChildren : (e :: es).reverse ≠ [] := by simp
      unfold close
      split
      · next h => exact absurd h hChildren
      · simp [Expr.ofListForm]

namespace TokenStream

/-- What is read after a step, with the tokens that are left. -/
def resume (fault : Option SyntaxError) (rest : List Token) :
    ReadStep → Result SyntaxError TokenStream (Option Expr)
  | .more r => readForm fault r rest
  | .done (.ok e) => .ok (some e) { lookahead := none, unread := rest, fault }
  | .done (.error e) => .error e { lookahead := none, unread := rest, fault }

theorem readForm_cons (fault : Option SyntaxError) (r : ReadState) (t : Token)
    (rest : List Token) : readForm fault r (t :: rest) = resume fault rest (readToken r t) := by
  rw [readForm]
  split <;> simp_all [resume]

/-- An atom is the head of the form that was just opened, and a child otherwise. -/
theorem readToken_lexeme (r : ReadState) (l : Lexeme) :
    readToken r l.token =
      match l.atom? with
      | none => .done (.error (.invalidSymbol l.token.text))
      | some a =>
        if r.awaitingHead then .more { awaitingHead := false, outer := ⟨a, []⟩ :: r.outer }
        else supply (Expr.leaf a) r.outer := by
  cases l <;> rfl

variable (fault : Option SyntaxError)

/-- The children of an open form are read one after the other. -/
private theorem readForm_tokensAll {δs : List Derivation} {es : List Expr}
    (hEach : ∀ δ ∈ δs, ∀ e outer rest, δ.expr? = some e →
      readForm fault ⟨false, outer⟩ (δ.tokens ++ rest) = resume fault rest (supply e outer))
    (hes : Derivation.exprs? δs = some es) (f : OpenForm) (fs : List OpenForm)
    (rest : List Token) :
    readForm fault ⟨false, f :: fs⟩ (Derivation.tokensAll δs ++ rest) =
      readForm fault ⟨false, ⟨f.head, es.reverse ++ f.children⟩ :: fs⟩ rest := by
  induction δs generalizing es f with
  | nil =>
      cases hes
      rfl
  | cons δ δs ih =>
      obtain ⟨hFirst, hRest⟩ := List.forall_mem_cons.mp hEach
      obtain ⟨e, es, he, hLater, rfl⟩ := Derivation.exprs?_cons.mp hes
      rw [Derivation.tokensAll, List.append_assoc, hFirst e _ _ he, supply, resume,
        ih hRest hLater]
      simp [OpenForm.add]

/-- The tokens of a derivation are read as its tree. -/
theorem readForm_tokens {δ : Derivation} {e : Expr} (he : δ.expr? = some e)
    (outer : List OpenForm) (rest : List Token) :
    readForm fault ⟨false, outer⟩ (δ.tokens ++ rest) = resume fault rest (supply e outer) := by
  induction δ using Derivation.induct generalizing e outer rest with
  | atom l =>
      obtain ⟨a, ha, rfl⟩ := Option.map_eq_some_iff.mp he
      rw [Derivation.tokens, List.singleton_append, readForm_cons, readToken_lexeme, ha]
      rfl
  | empty =>
      cases he
      rfl
  | list head children ih =>
      obtain ⟨a, es, ha, hes, rfl⟩ := Derivation.expr?_list.mp he
      have hChildren := readForm_tokensAll fault (fun δ hδ e outer rest he => ih δ hδ he outer rest)
        hes ⟨a, []⟩ outer (.closing :: rest)
      calc readForm fault ⟨false, outer⟩ ((Derivation.list head children).tokens ++ rest)
        _ = readForm fault ⟨true, outer⟩
              (head.token :: (Derivation.tokensAll children ++ .closing :: rest)) := by
            rw [Derivation.tokens, List.cons_append, readForm_cons, List.cons_append,
              List.append_assoc]
            rfl
        _ = readForm fault ⟨false, ⟨a, []⟩ :: outer⟩
              (Derivation.tokensAll children ++ .closing :: rest) := by
            rw [readForm_cons, readToken_lexeme, ha]
            rfl
        _ = readForm fault ⟨false, ⟨a, es.reverse⟩ :: outer⟩ (.closing :: rest) := by
            simpa only [List.append_nil] using hChildren
        _ = resume fault rest (supply (Expr.ofListForm a es) outer) := by
            rw [readForm_cons, ← OpenForm.close_eq]
            rfl

end TokenStream

/-! The tokens that were taken, as far as they belong to the form that is being
read. -/

/-- The tokens have led to the open forms, innermost first: each has its head
and the forms so far, and the next one was opened after these. -/
inductive OpenForm.Begun : List OpenForm → List Token → Prop where
  | nil : Begun [] []
  | cons {fs : List OpenForm} {ts : List Token} {f : OpenForm} {l : Lexeme} {δs : List Derivation}
      (hOuter : Begun fs ts) (hHead : l.atom? = some f.head)
      (hChildren : Derivation.exprs? δs = some f.children.reverse) :
      Begun (f :: fs) (ts ++ .opening :: l.token :: Derivation.tokensAll δs)

/-- The tokens have led to the state. -/
def ReadState.Begun (r : ReadState) (ts : List Token) : Prop :=
  ∃ us, OpenForm.Begun r.outer us ∧ ts = if r.awaitingHead then us ++ [.opening] else us

/-- The tokens have led to the outcome of a step. A form that is complete is
derived by all of them. -/
def ReadStep.Begun : ReadStep → List Token → Prop
  | .more r, ts => r.Begun ts
  | .done (.ok e), ts => ∃ δ : Derivation, δ.tokens = ts ∧ δ.expr? = some e
  | .done (.error _), _ => True

theorem ReadState.begun_nil : ReadState.Begun {} [] := ⟨[], .nil, rfl⟩

namespace TokenStream

/-- A form that is complete has taken its tokens, and so has the form it is added to. -/
theorem supply_begun {δ : Derivation} {e : Expr} (he : δ.expr? = some e) {outer : List OpenForm}
    {ts : List Token} (h : OpenForm.Begun outer ts) : (supply e outer).Begun (ts ++ δ.tokens) := by
  cases h with
  | nil => exact ⟨δ, rfl, he⟩
  | @cons fs us f l δs hOuter hHead hChildren =>
      have hNext : Derivation.exprs? (δs ++ [δ]) = some (f.add e).children.reverse := by
        simpa [OpenForm.add] using Derivation.exprs?_concat hChildren he
      refine ⟨_, .cons (f := f.add e) hOuter hHead hNext, ?_⟩
      simp [Derivation.tokensAll_append, Derivation.tokensAll]

/-- A word or a string is the head of a form, or a form by itself. -/
theorem readToken_lexeme_begun {awaiting : Bool} {outer : List OpenForm} {ts : List Token}
    (h : OpenForm.Begun outer ts) (l : Lexeme) :
    (readToken ⟨awaiting, outer⟩ l.token).Begun
      ((if awaiting then ts ++ [.opening] else ts) ++ [l.token]) := by
  rw [readToken_lexeme]
  cases ha : l.atom? with
  | none => trivial
  | some a =>
      cases awaiting with
      | true =>
          have hChildren : Derivation.exprs? [] = some ([] : List Expr).reverse := rfl
          exact ⟨_, .cons (f := ⟨a, []⟩) h ha hChildren, by simp [Derivation.tokensAll]⟩
      | false =>
          have hLeaf : (Derivation.atom l).expr? = some (Expr.leaf a) := by
            simp [Derivation.expr?, ha]
          exact supply_begun hLeaf h

/-- Every token extends what was begun, or completes it. -/
theorem readToken_begun {r : ReadState} {ts : List Token} (h : r.Begun ts) (t : Token) :
    (readToken r t).Begun (ts ++ [t]) := by
  obtain ⟨awaiting, outer⟩ := r
  obtain ⟨us, hOuter, rfl⟩ := h
  cases t with
  | word text => exact readToken_lexeme_begun hOuter (.word text)
  | string lexeme => exact readToken_lexeme_begun hOuter (.string lexeme)
  | opening =>
      cases awaiting with
      | true => trivial
      | false => exact ⟨us, hOuter, rfl⟩
  | closing =>
      cases awaiting with
      | true =>
          have hNone : Derivation.empty.expr? = some Expr.none := rfl
          simpa [readToken, Derivation.tokens] using supply_begun hNone hOuter
      | false =>
          cases hOuter with
          | nil => trivial
          | @cons fs us f l δs hOuter hHead hChildren =>
              have hClose : (Derivation.list l δs).expr? = some f.close := by
                rw [Derivation.expr?_list]
                refine ⟨f.head, f.children.reverse, hHead, hChildren, ?_⟩
                rw [← OpenForm.close_eq, List.reverse_reverse]
              simpa [readToken, Derivation.tokens] using supply_begun hClose hOuter

/-- A form that is read took the tokens of a derivation. The induction is on the
tokens; what was begun is what it carries along. -/
theorem derivation_of_readForm {fault : Option SyntaxError} {tokens ts : List Token}
    {r : ReadState} (hBegun : r.Begun ts) {e : Expr} {s : TokenStream}
    (h : readForm fault r tokens = .ok (some e) s) :
    ∃ δ rest, ts ++ tokens = Derivation.tokens δ ++ rest ∧ δ.expr? = some e ∧
      s = { lookahead := none, unread := rest, fault } := by
  induction tokens generalizing r ts with
  | nil =>
      simp only [readForm] at h
      split at h
      · cases h
      · split at h <;> cases h
  | cons t tokens ih =>
      have hStep := readToken_begun hBegun t
      rw [readForm_cons] at h
      cases hRead : readToken r t with
      | more r' =>
          rw [hRead] at h hStep
          simpa using ih hStep h
      | done answer =>
          rw [hRead] at h hStep
          cases answer with
          | ok e' =>
              cases h
              obtain ⟨δ, hTokens, he⟩ := hStep
              exact ⟨δ, tokens, by simp [hTokens], he, rfl⟩
          | error e' => cases h

/-- The text can end only where no form was begun. -/
theorem eq_nil_of_readForm {fault : Option SyntaxError} {tokens ts : List Token}
    {r : ReadState} (hBegun : r.Begun ts) {s : TokenStream}
    (h : readForm fault r tokens = .ok none s) : ts ++ tokens = [] ∧ fault = none := by
  induction tokens generalizing r ts with
  | nil =>
      obtain ⟨awaiting, outer⟩ := r
      obtain ⟨us, hOuter, rfl⟩ := hBegun
      cases fault with
      | some e => cases h
      | none =>
          cases awaiting with
          | true => cases h
          | false =>
              cases hOuter with
              | nil => exact ⟨rfl, rfl⟩
              | cons hOuter hHead hChildren => cases h
  | cons t tokens ih =>
      have hStep := readToken_begun hBegun t
      rw [readForm_cons] at h
      cases hRead : readToken r t with
      | more r' =>
          rw [hRead] at h hStep
          exact absurd (ih hStep h).1 (by simp)
      | done answer =>
          rw [hRead] at h
          cases answer <;> cases h

/-! Form after form. -/

theorem readForms_of_parse {s s' : TokenStream} {e : Expr} (h : parse s = .ok (some e) s') :
    s.readForms = (e :: s'.readForms.1, s'.readForms.2) := by
  rw [readForms]
  split <;> simp_all

/-- The tokens of a derivation at the front are read as its tree, up to the last
of them. -/
theorem parse_of_pending {s : TokenStream} {δ : Derivation} {rest : List Token} {e : Expr}
    (hPending : s.pending = δ.tokens ++ rest) (he : δ.expr? = some e) :
    parse s = .ok (some e) { lookahead := none, unread := rest, fault := s.fault } := by
  rw [parse, hPending, readForm_tokens s.fault he]
  rfl

theorem readForms_of_parse_end {s s' : TokenStream} (h : parse s = .ok none s') :
    s.readForms = ([], none) := by
  rw [readForms]
  split <;> simp_all

theorem readForms_of_parse_error {s s' : TokenStream} {e : SyntaxError}
    (h : parse s = .error e s') : s.readForms = ([], some e) := by
  rw [readForms]
  split <;> simp_all

/-- All forms can be read exactly if the tokens can be derived. -/
theorem readForms_eq_iff {s : TokenStream} {forms : List Expr} :
    s.readForms = (forms, none) ↔
      s.fault = none ∧ ∃ δs, Derivation.tokensAll δs = s.pending ∧
        Derivation.exprs? δs = some forms := by
  constructor
  · intro h
    fun_induction readForms s generalizing forms with
    | case1 s e s' hParse => cases h
    | case2 s s' hParse =>
        cases h
        obtain ⟨hPending, hFault⟩ := eq_nil_of_readForm ReadState.begun_nil hParse
        exact ⟨hFault, [], hPending.symm, rfl⟩
    | case3 s e s' hParse forms' fault hRest ih =>
        cases h
        obtain ⟨δ, rest, hPending, he, rfl⟩ := derivation_of_readForm ReadState.begun_nil hParse
        obtain ⟨hFault, δs, hTokens, hForms⟩ := ih hRest
        refine ⟨hFault, δ :: δs, ?_, Derivation.exprs?_cons.mpr ⟨e, _, he, hForms, rfl⟩⟩
        rw [Derivation.tokensAll, hTokens]
        exact hPending.symm
  · rintro ⟨hFault, δs, hTokens, hForms⟩
    induction δs generalizing s forms with
    | nil =>
        cases hForms
        have hParse : parse s = .ok none exhausted := by
          rw [parse, ← hTokens, hFault]
          rfl
        exact readForms_of_parse_end hParse
    | cons δ δs ih =>
        obtain ⟨e, es, he, hes, rfl⟩ := Derivation.exprs?_cons.mp hForms
        have hRest : readForms ⟨none, Derivation.tokensAll δs, s.fault⟩ = (es, none) :=
          ih hFault rfl hes
        rw [readForms_of_parse (parse_of_pending hTokens.symm he), hRest]

/-! Whatever the lexer finds denotes something, so no text is refused for the
name of a symbol. -/

variable {name : String}

/-- Adding a child never fails. -/
theorem supply_ne_error (e : Expr) (outer : List OpenForm) (fault : SyntaxError) :
    supply e outer ≠ .done (.error fault) := by
  cases outer <;> simp [supply]

/-- A token of the lexer always denotes something. -/
theorem readToken_ne_invalidSymbol {t : Token} (ht : t.IsLexed) (r : ReadState) :
    readToken r t ≠ .done (.error (.invalidSymbol name)) := by
  have hLexeme (l : Lexeme) (hl : l.token.IsLexed) :
      readToken r l.token ≠ .done (.error (.invalidSymbol name)) := by
    obtain ⟨a, ha⟩ := l.exists_atom? hl
    rw [readToken_lexeme, ha]
    dsimp only
    split
    · simp
    · exact supply_ne_error _ _ _
  cases t with
  | word text => exact hLexeme (.word text) ht
  | string lexeme => exact hLexeme (.string lexeme) ht
  | opening =>
      rw [readToken]
      split <;> simp
  | closing =>
      rw [readToken]
      split
      · exact supply_ne_error _ _ _
      · split
        · simp
        · exact supply_ne_error _ _ _

theorem readForm_ne_invalidSymbol {fault : Option SyntaxError} {tokens : List Token}
    (hFault : fault ≠ some (.invalidSymbol name)) (hTokens : ∀ t ∈ tokens, t.IsLexed)
    (r : ReadState) (s : TokenStream) :
    readForm fault r tokens ≠ .error (.invalidSymbol name) s := by
  induction tokens generalizing r with
  | nil =>
      unfold readForm
      split
      · rintro h
        cases h
        exact hFault rfl
      · split <;> simp
  | cons t tokens ih =>
      obtain ⟨ht, hRest⟩ := List.forall_mem_cons.mp hTokens
      rw [readForm_cons]
      cases hRead : readToken r t with
      | more r' => exact ih hRest r'
      | done answer =>
          cases answer with
          | ok e => simp [resume]
          | error e =>
              rintro h
              cases h
              exact readToken_ne_invalidSymbol ht r hRead

/-- Words of a text are names, so no word is ever refused as one. -/
theorem readForms_ne_invalidSymbol {s : TokenStream}
    (hFault : s.fault ≠ some (.invalidSymbol name)) (hTokens : ∀ t ∈ s.pending, t.IsLexed) :
    s.readForms.2 ≠ some (.invalidSymbol name) := by
  fun_induction readForms s with
  | case1 s e s' hParse =>
      rintro h
      cases h
      exact readForm_ne_invalidSymbol hFault hTokens _ _ hParse
  | case2 s s' hParse => simp
  | case3 s e s' hParse forms fault hRest ih =>
      obtain ⟨δ, rest, hPending, _, rfl⟩ := derivation_of_readForm ReadState.begun_nil hParse
      rw [hRest] at ih
      refine ih hFault fun t ht => hTokens t ?_
      have hLater : t ∈ [] ++ s.pending := hPending ▸ List.mem_append_right _ ht
      exact hLater

end TokenStream

/-- The derivations are of the tokens of the text, and the text is read to its end. -/
def Derives (source : String) (δs : List Derivation) : Prop :=
  lex source = (Derivation.tokensAll δs, none)

instance (source : String) (δs : List Derivation) : Decidable (Derives source δs) :=
  inferInstanceAs (Decidable (lex source = (Derivation.tokensAll δs, none)))

/-- A text has at most one derivation. -/
theorem Derives.eq {source : String} {δs δs' : List Derivation} (h : Derives source δs)
    (h' : Derives source δs') : δs = δs' :=
  Derivation.tokensAll_injective (congrArg Prod.fst (h.symm.trans h'))

/-- A text that has a derivation can be read. -/
theorem Derives.exists_exprs? {source : String} {δs : List Derivation} (h : Derives source δs) :
    ∃ forms, Derivation.exprs? δs = some forms := by
  have hLexed := lex_isLexed source
  rw [h] at hLexed
  exact Derivation.exists_exprs? hLexed

/-- A text is read as the trees of its derivation, and only if it has one. -/
theorem readSource_eq_ok_iff {source : String} {forms : List Expr} :
    readSource source = .ok forms ↔
      ∃ δs, Derives source δs ∧ Derivation.exprs? δs = some forms := by
  have hOk : readSource source = .ok forms ↔
      (TokenStream.ofSource source).readForms = (forms, none) := by
    unfold readSource
    split <;> simp_all
  have hDerives (δs : List Derivation) : Derives source δs ↔
      (lex source).2 = none ∧ Derivation.tokensAll δs = (lex source).1 := by
    rw [Derives, Prod.ext_iff, and_comm, eq_comm (a := (lex source).1)]
  rw [hOk, TokenStream.readForms_eq_iff]
  simp only [hDerives, and_assoc, exists_and_left]
  rfl

theorem readSource_ne_invalidSymbol (source name : String) :
    readSource source ≠ .error (.invalidSymbol name) := by
  have hFault : (lex source).2 ≠ some (.invalidSymbol name) := by
    intro h
    obtain ⟨since, hSince⟩ := lexFrom_fault h
    cases hSince
  have hForms := TokenStream.readForms_ne_invalidSymbol (s := .ofSource source) hFault
    (lex_isLexed source)
  unfold readSource
  split
  · simp
  · simp_all

/-- A text is read exactly if it is derived from the grammar. Its derivation is
the only one, and the forms are the trees of it. Any other text is refused, and
never for the name of a symbol. -/
theorem readSource_grammar (source : String) :
    ((∃ forms, readSource source = .ok forms) ↔ ∃ δs, Derives source δs) ∧
    (∀ δs, Derives source δs → (∀ δs', Derives source δs' → δs' = δs) ∧
      ∃ forms, Derivation.exprs? δs = some forms ∧ readSource source = .ok forms) ∧
    ((¬∃ δs, Derives source δs) →
      ∃ e, readSource source = .error e ∧ ∀ name, e ≠ .invalidSymbol name) := by
  have hTree (δs : List Derivation) (hδs : Derives source δs) :
      ∃ forms, Derivation.exprs? δs = some forms ∧ readSource source = .ok forms := by
    obtain ⟨forms, hForms⟩ := hδs.exists_exprs?
    exact ⟨forms, hForms, readSource_eq_ok_iff.mpr ⟨δs, hδs, hForms⟩⟩
  refine ⟨⟨?_, ?_⟩, ?_, ?_⟩
  · rintro ⟨forms, hRead⟩
    obtain ⟨δs, hδs, _⟩ := readSource_eq_ok_iff.mp hRead
    exact ⟨δs, hδs⟩
  · rintro ⟨δs, hδs⟩
    obtain ⟨forms, _, hRead⟩ := hTree δs hδs
    exact ⟨forms, hRead⟩
  · intro δs hδs
    exact ⟨fun δs' hδs' => hδs'.eq hδs, hTree δs hδs⟩
  · intro hNone
    cases hRead : readSource source with
    | ok forms =>
        obtain ⟨δs, hδs, _⟩ := readSource_eq_ok_iff.mp hRead
        exact absurd ⟨δs, hδs⟩ hNone
    | error e =>
        refine ⟨e, rfl, ?_⟩
        rintro name rfl
        exact readSource_ne_invalidSymbol source name hRead

/-- A text with a string as a head, an empty list and a missing value is read as
its tree; one whose string is never closed is not. -/
theorem readSource_grammar_forms :
    readSource "(\"a;b\" x (list)) ()" =
        .ok [Expr.node (.string "a;b") [Expr.leaf (.symbol ⟨"x", by decide⟩), Expr.list []],
          Expr.none] ∧
      ∃ e, readSource "(x \"a" = .error e ∧ ∀ name, e ≠ .invalidSymbol name := by
  refine ⟨?_, (readSource_grammar "(x \"a").2.2 ?_⟩
  · let δs : List Derivation :=
      [.list (.string "\"a;b\"") [.atom (.word "x"), .list (.word "list") []], .empty]
    have hδs : Derives "(\"a;b\" x (list)) ()" δs := by decide +kernel
    obtain ⟨_, forms, hForms, hRead⟩ := (readSource_grammar "(\"a;b\" x (list)) ()").2.1 δs hδs
    have hTree : Derivation.exprs? δs =
        some [Expr.node (.string "a;b") [Expr.leaf (.symbol ⟨"x", by decide⟩), Expr.list []],
          Expr.none] := rfl
    cases hForms.symm.trans hTree
    exact hRead
  · rintro ⟨δs, hδs⟩
    have hOpen : (lex "(x \"a").2 = some (.unclosedString 2) := by decide +kernel
    rw [hδs] at hOpen
    cases hOpen

end PlotLang
