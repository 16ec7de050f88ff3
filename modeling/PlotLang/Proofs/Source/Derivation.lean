import PlotLang.Proofs.Source.Lexer
import PlotLang.Proofs.Source.Word

/-! The grammar of source texts. A form is a word, a string, an empty pair of
parentheses, or a pair of parentheses around a head, which is a word or a string,
and further forms. A sequence of tokens has at most one derivation. -/
namespace PlotLang

/-- A token that is a form by itself, and that may head a list form. -/
inductive Lexeme where
  | word (text : String)
  | string (lexeme : String)

namespace Lexeme

def token : Lexeme → Token
  | word text => .word text
  | string lexeme => .string lexeme

def atom? : Lexeme → Option Atom
  | word text => Atom.ofWord? text
  | string lexeme => Atom.ofWord? lexeme

/-- Words and strings are different tokens, even of the same text. -/
theorem token_injective {l l' : Lexeme} (h : l.token = l'.token) : l = l' := by
  cases l <;> cases l' <;> simp_all [token]

theorem token_ne_opening (l : Lexeme) : l.token ≠ .opening := by
  cases l <;> simp [token]

theorem token_ne_closing (l : Lexeme) : l.token ≠ .closing := by
  cases l <;> simp [token]

end Lexeme

/-- Whatever the lexer finds denotes something. -/
theorem Lexeme.exists_atom? {l : Lexeme} (h : l.token.IsLexed) : ∃ a, l.atom? = some a := by
  cases l with
  | word text => exact Atom.exists_ofWord? (.inl h)
  | string lexeme =>
      obtain ⟨body, rfl, _⟩ := h
      exact Atom.exists_ofWord? (.inr ⟨body, by simp [Atom.unquote?_quoted]⟩)

inductive Derivation where
  /-- a word or a string -/
  | atom (l : Lexeme)
  /-- an empty pair of parentheses -/
  | empty
  /-- a head and further forms between parentheses -/
  | list (head : Lexeme) (children : List Derivation)

/-- The expression of a list form. The symbol `list` alone makes the empty list. -/
def Expr.ofListForm (a : Atom) : List Expr → Expr
  | [] => if a = .symbol Builtin.list.symbol then Expr.list [] else Expr.leaf a
  | es => Expr.node a es

namespace Derivation

mutual

def tokens : Derivation → List Token
  | atom l => [l.token]
  | empty => [.opening, .closing]
  | list head children => .opening :: head.token :: (tokensAll children ++ [.closing])

def tokensAll : List Derivation → List Token
  | [] => []
  | δ :: δs => tokens δ ++ tokensAll δs

end

mutual

/-- The tree of a derivation, if all its words denote something. -/
def expr? : Derivation → Option Expr
  | atom l => l.atom?.map Expr.leaf
  | empty => some Expr.none
  | list head children =>
    match head.atom?, exprs? children with
    | some a, some es => some (Expr.ofListForm a es)
    | _, _ => none

def exprs? : List Derivation → Option (List Expr)
  | [] => some []
  | δ :: δs =>
    match expr? δ, exprs? δs with
    | some e, some es => some (e :: es)
    | _, _ => none

end

/-- Induction over derivations with the children at hand. -/
theorem induct {P : Derivation → Prop} (atom : ∀ l, P (.atom l)) (empty : P .empty)
    (list : ∀ head children, (∀ δ ∈ children, P δ) → P (.list head children)) (δ : Derivation) :
    P δ := by
  refine @Derivation.rec P (fun δs => ∀ δ ∈ δs, P δ) atom empty list ?_ ?_ δ
  · simp
  · intro δ δs hδ hδs
    exact List.forall_mem_cons.mpr ⟨hδ, hδs⟩

/-- Forms next to each other have their tokens next to each other. -/
theorem tokensAll_append (δs δs' : List Derivation) :
    tokensAll (δs ++ δs') = tokensAll δs ++ tokensAll δs' := by
  induction δs with
  | nil => rfl
  | cons δ δs ih => simp [tokensAll, ih]

/-- Forms have trees if each of them has one. -/
theorem exprs?_cons {δ : Derivation} {δs : List Derivation} {forms : List Expr} :
    exprs? (δ :: δs) = some forms ↔
      ∃ e es, expr? δ = some e ∧ exprs? δs = some es ∧ forms = e :: es := by
  rw [exprs?]
  cases expr? δ <;> cases exprs? δs <;> simp [eq_comm]

/-- A list has a tree if its head denotes an atom and its children have trees. -/
theorem expr?_list {head : Lexeme} {children : List Derivation} {e : Expr} :
    expr? (.list head children) = some e ↔
      ∃ a es, head.atom? = some a ∧ exprs? children = some es ∧ e = Expr.ofListForm a es := by
  rw [expr?]
  cases head.atom? <;> cases exprs? children <;> simp [eq_comm]

/-- A form at the end adds its tree at the end. -/
theorem exprs?_concat {δs : List Derivation} {δ : Derivation} {es : List Expr} {e : Expr}
    (hδs : exprs? δs = some es) (hδ : expr? δ = some e) :
    exprs? (δs ++ [δ]) = some (es ++ [e]) := by
  induction δs generalizing es with
  | nil =>
      cases hδs
      simp [exprs?, hδ]
  | cons δ' δs ih =>
      obtain ⟨e', es', hFirst, hRest, rfl⟩ := exprs?_cons.mp hδs
      exact exprs?_cons.mpr ⟨e', es' ++ [e], hFirst, ih hRest, rfl⟩

private theorem exists_exprs?_of_forall {δs : List Derivation}
    (hEach : ∀ δ ∈ δs, (∀ t ∈ δ.tokens, t.IsLexed) → ∃ e, δ.expr? = some e)
    (h : ∀ t ∈ tokensAll δs, t.IsLexed) : ∃ es, exprs? δs = some es := by
  induction δs with
  | nil => exact ⟨[], rfl⟩
  | cons δ δs ih =>
      obtain ⟨hδ, hδs⟩ := List.forall_mem_cons.mp hEach
      obtain ⟨hFirst, hRest⟩ := List.forall_mem_append.mp h
      obtain ⟨e, he⟩ := hδ hFirst
      obtain ⟨es, hes⟩ := ih hδs hRest
      exact ⟨e :: es, exprs?_cons.mpr ⟨e, es, he, hes, rfl⟩⟩

/-- A derivation of tokens that the lexer found has a tree. -/
theorem exists_expr? {δ : Derivation} (h : ∀ t ∈ δ.tokens, t.IsLexed) : ∃ e, δ.expr? = some e := by
  induction δ using Derivation.induct with
  | atom l =>
      obtain ⟨a, ha⟩ := Lexeme.exists_atom? (h l.token (by simp [tokens]))
      exact ⟨Expr.leaf a, by simp [expr?, ha]⟩
  | empty => exact ⟨Expr.none, rfl⟩
  | list head children ih =>
      simp only [tokens, List.forall_mem_cons, List.forall_mem_append] at h
      obtain ⟨_, hHead, hChildren, _⟩ := h
      obtain ⟨a, ha⟩ := Lexeme.exists_atom? hHead
      obtain ⟨es, hes⟩ := exists_exprs?_of_forall ih hChildren
      exact ⟨Expr.ofListForm a es, expr?_list.mpr ⟨a, es, ha, hes, rfl⟩⟩

/-- Tokens of the lexer always denote something, so every derivation from them has
a tree. -/
theorem exists_exprs? {δs : List Derivation} (h : ∀ t ∈ tokensAll δs, t.IsLexed) :
    ∃ es, exprs? δs = some es :=
  exists_exprs?_of_forall (fun _ _ => exists_expr?) h

/-- No form begins with a closing parenthesis. -/
theorem exists_tokens_cons (δ : Derivation) : ∃ t ts, δ.tokens = t :: ts ∧ t ≠ .closing := by
  cases δ with
  | atom l => exact ⟨_, _, rfl, l.token_ne_closing⟩
  | empty => exact ⟨_, _, rfl, by simp⟩
  | list head children => exact ⟨_, _, rfl, by simp⟩

/-- Forms up to a closing parenthesis are unique if each of them is. -/
private theorem tokensAll_append_closing {δs δs' : List Derivation} {rest rest' : List Token}
    (hEach : ∀ δ ∈ δs, ∀ δ' rest rest', δ.tokens ++ rest = tokens δ' ++ rest' →
      δ = δ' ∧ rest = rest')
    (h : tokensAll δs ++ .closing :: rest = tokensAll δs' ++ .closing :: rest') :
    δs = δs' ∧ rest = rest' := by
  induction δs generalizing δs' with
  | nil =>
      cases δs' with
      | nil => exact ⟨rfl, by simpa [tokensAll] using h⟩
      | cons δ' δs' =>
          obtain ⟨t, ts, hTokens, ht⟩ := δ'.exists_tokens_cons
          simp [tokensAll, hTokens, Ne.symm ht] at h
  | cons δ δs ih =>
      cases δs' with
      | nil =>
          obtain ⟨t, ts, hTokens, ht⟩ := δ.exists_tokens_cons
          simp [tokensAll, hTokens, ht] at h
      | cons δ' δs' =>
          obtain ⟨hδ, hδs⟩ := List.forall_mem_cons.mp hEach
          rw [tokensAll, tokensAll, List.append_assoc, List.append_assoc] at h
          obtain ⟨rfl, hRest⟩ := hδ δ' _ _ h
          obtain ⟨rfl, rfl⟩ := ih hδs hRest
          exact ⟨rfl, rfl⟩

/-- The tokens tell where a form ends and how it is derived. -/
theorem tokens_append {δ δ' : Derivation} {rest rest' : List Token}
    (h : δ.tokens ++ rest = δ'.tokens ++ rest') : δ = δ' ∧ rest = rest' := by
  induction δ using Derivation.induct generalizing δ' rest rest' with
  | atom l =>
      cases δ' with
      | atom l' =>
          obtain ⟨hToken, hRest⟩ := List.cons.inj h
          exact ⟨congrArg atom (Lexeme.token_injective hToken), hRest⟩
      | empty => exact absurd (List.cons.inj h).1 l.token_ne_opening
      | list head children => exact absurd (List.cons.inj h).1 l.token_ne_opening
  | empty =>
      cases δ' with
      | atom l' => exact absurd (List.cons.inj h).1.symm l'.token_ne_opening
      | empty => exact ⟨rfl, by simpa [tokens] using h⟩
      | list head children =>
          have hHead := (List.cons.inj (List.cons.inj h).2).1
          exact absurd hHead.symm head.token_ne_closing
  | list head children ih =>
      cases δ' with
      | atom l' => exact absurd (List.cons.inj h).1.symm l'.token_ne_opening
      | empty =>
          have hHead := (List.cons.inj (List.cons.inj h).2).1
          exact absurd hHead head.token_ne_closing
      | list head' children' =>
          obtain ⟨hHead, hRest⟩ := List.cons.inj (List.cons.inj h).2
          have hChildren : tokensAll children ++ .closing :: rest =
              tokensAll children' ++ .closing :: rest' := by simpa using hRest
          obtain ⟨rfl, rfl⟩ := tokensAll_append_closing
            (fun δ hδ δ' rest rest' h => ih δ hδ h) hChildren
          exact ⟨congrArg (list · children) (Lexeme.token_injective hHead), rfl⟩

/-- Different derivations have different tokens, so a text has at most one
derivation. -/
theorem tokensAll_injective : Function.Injective tokensAll := by
  intro δs δs' h
  have hClosed : tokensAll δs ++ .closing :: [] = tokensAll δs' ++ .closing :: [] := by rw [h]
  exact (tokensAll_append_closing (fun _ _ _ _ _ h => tokens_append h) hClosed).1

end Derivation

end PlotLang
