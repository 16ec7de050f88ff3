import PlotLang.Proofs.Source.Recognition

/-! The leading forms of a text: those that are complete before anything in the
text is at fault. They depend on the tokens alone. What comes after them, be it
the end, a parenthesis too many or a string that is never closed, has no part in
them. Reading one form after the other finds exactly these. -/
namespace PlotLang

/-- The tokens are those of the derivations and a rest with which no form
begins. -/
structure Derivation.Leads (tokens : List Token) (δs : List Derivation) (rest : List Token) :
    Prop where
  split : tokens = tokensAll δs ++ rest
  stop : ∀ (δ : Derivation) (later : List Token), rest ≠ δ.tokens ++ later

namespace Derivation.Leads
variable {tokens rest : List Token} {δ : Derivation} {δs : List Derivation}

/-- Another form in front leaves what stands behind it as it is. -/
theorem cons (h : Leads tokens δs rest) : Leads (δ.tokens ++ tokens) (δ :: δs) rest where
  split := by rw [tokensAll, List.append_assoc, ← h.split]
  stop := h.stop

theorem nil : Leads [] [] [] where
  split := rfl
  stop := by
    intro δ later h
    obtain ⟨t, ts, hTokens, _⟩ := δ.exists_tokens_cons
    rw [hTokens] at h
    cases h

/-- The tokens tell how far the forms go. The induction is on the forms; each
of them ends where the other reading has it end. -/
theorem eq {δs' : List Derivation} {rest' : List Token} (h : Leads tokens δs rest)
    (h' : Leads tokens δs' rest') : δs = δs' ∧ rest = rest' := by
  obtain ⟨hSplit, hStop⟩ := h
  obtain ⟨hSplit', hStop'⟩ := h'
  subst hSplit
  induction δs generalizing δs' with
  | nil =>
      cases δs' with
      | nil => exact ⟨rfl, hSplit'⟩
      | cons δ' δs' =>
          rw [tokensAll, tokensAll, List.append_assoc] at hSplit'
          exact absurd hSplit' (hStop δ' _)
  | cons δ δs ih =>
      cases δs' with
      | nil =>
          rw [tokensAll, tokensAll, List.append_assoc] at hSplit'
          exact absurd hSplit'.symm (hStop' δ _)
      | cons δ' δs' =>
          rw [tokensAll, tokensAll, List.append_assoc, List.append_assoc] at hSplit'
          obtain ⟨rfl, hRest⟩ := tokens_append hSplit'
          obtain ⟨rfl, rfl⟩ := ih hRest
          exact ⟨rfl, rfl⟩

end Derivation.Leads

namespace TokenStream

/-- Reading form after form takes the leading forms. The induction is on the
tokens that are left, which the lexer found. -/
theorem exists_leads {s : TokenStream} (hTokens : ∀ t ∈ s.pending, t.IsLexed) :
    ∃ δs rest, Derivation.Leads s.pending δs rest ∧
      Derivation.exprs? δs = some s.readForms.1 := by
  fun_induction readForms s with
  | case1 s e s' hParse =>
      have hStop (δ : Derivation) (later : List Token) : s.pending ≠ δ.tokens ++ later := by
        intro hPending
        have hLexed : ∀ t ∈ δ.tokens, t.IsLexed := fun t ht =>
          hTokens t (hPending ▸ List.mem_append_left later ht)
        obtain ⟨form, hForm⟩ := Derivation.exists_expr? hLexed
        rw [parse_of_pending hPending hForm] at hParse
        cases hParse
      exact ⟨[], s.pending, ⟨rfl, hStop⟩, rfl⟩
  | case2 s s' hParse =>
      obtain ⟨hPending, _⟩ := eq_nil_of_readForm ReadState.begun_nil hParse
      change s.pending = [] at hPending
      rw [hPending]
      exact ⟨[], [], .nil, rfl⟩
  | case3 s form s' hParse forms fault hRest ih =>
      obtain ⟨δ, unread, hPending, hForm, rfl⟩ :=
        derivation_of_readForm ReadState.begun_nil hParse
      change s.pending = δ.tokens ++ unread at hPending
      rw [hPending] at hTokens ⊢
      obtain ⟨δs, rest, hLeads, hForms⟩ := ih fun t ht => hTokens t (List.mem_append_right _ ht)
      rw [hRest] at hForms
      exact ⟨δ :: δs, rest, hLeads.cons,
        Derivation.exprs?_cons.mpr ⟨form, forms, hForm, hForms, rfl⟩⟩

end TokenStream

/-- The forms that are complete before the end of the text or its first fault. -/
def Leading (source : String) (forms : List Expr) : Prop :=
  ∃ δs rest, Derivation.Leads (lex source).1 δs rest ∧ Derivation.exprs? δs = some forms

/-- The forms that are read are those in front of the first fault. -/
theorem leading_readForms (source : String) :
    Leading source (TokenStream.ofSource source).readForms.1 :=
  TokenStream.exists_leads (s := .ofSource source) (lex_isLexed source)

/-- There is one way to say what stands in front of the first fault. -/
theorem Leading.eq {source : String} {forms forms' : List Expr} (h : Leading source forms)
    (h' : Leading source forms') : forms = forms' := by
  obtain ⟨δs, rest, hLeads, hForms⟩ := h
  obtain ⟨δs', rest', hLeads', hForms'⟩ := h'
  obtain ⟨rfl, rfl⟩ := hLeads.eq hLeads'
  exact Option.some.inj (hForms.symm.trans hForms')

/-- Where the whole text can be read, its forms are its leading forms. -/
theorem readSource_eq (source : String) :
    readSource source =
      match (TokenStream.ofSource source).readForms.2 with
      | none => .ok (TokenStream.ofSource source).readForms.1
      | some e => .error e := by
  unfold readSource
  generalize (TokenStream.ofSource source).readForms = answer
  obtain ⟨forms, fault⟩ := answer
  cases fault <;> rfl

end PlotLang
