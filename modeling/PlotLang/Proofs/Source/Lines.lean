import PlotLang.Proofs.Source.Recognition

/-! A text behind a line break. Whatever a text ends in, a line break ends it
too, unless a string is open: then the lexer goes on between tokens, as at the
beginning of a text. Only the positions of faults tell the two apart. -/
namespace PlotLang

/-- The fault as it is reported at another position. Only an open string is
reported with a position. -/
def SyntaxError.movedTo (position : Nat) : SyntaxError → SyntaxError
  | .unclosedString _ => .unclosedString position
  | e => e

/-! The lexer. -/

/-- The lexer is in the middle of the same, reached at other positions. -/
inductive LexMode.Alike : LexMode → LexMode → Prop where
  | gap (since since' : Nat) : Alike (.gap since) (.gap since')
  | comment : Alike .comment .comment
  | word (chars : List Char) : Alike (.word chars) (.word chars)
  | string (since since' : Nat) (chars : List Char) :
      Alike (.string since chars) (.string since' chars)

namespace LexMode.Alike

theorem enter (since since' position position' : Nat) (c : Char) :
    (LexMode.enter since' position' c).1 = (LexMode.enter since position c).1 ∧
      Alike (LexMode.enter since position c).2 (LexMode.enter since' position' c).2 := by
  unfold LexMode.enter
  split_ifs with hBlank hOpen hClose hComment hQuote
  · exact ⟨rfl, .gap _ _⟩
  · exact ⟨rfl, .gap _ _⟩
  · exact ⟨rfl, .gap _ _⟩
  · exact ⟨rfl, .comment⟩
  · exact ⟨rfl, .string _ _ _⟩
  · exact ⟨rfl, .word _⟩

/-- Lexers that differ in positions stay so with every character. -/
theorem step {mode mode' : LexMode} (h : Alike mode mode') (position position' : Nat) (c : Char) :
    (mode'.step position' c).1 = (mode.step position c).1 ∧
      Alike (mode.step position c).2 (mode'.step position' c).2 := by
  cases h with
  | gap since since' => exact enter since since' position position' c
  | comment =>
      rw [LexMode.step, LexMode.step]
      split_ifs
      · exact ⟨rfl, .gap _ _⟩
      · exact ⟨rfl, .comment⟩
  | word chars =>
      rw [LexMode.step, LexMode.step]
      split_ifs
      · exact ⟨rfl, .word _⟩
      · obtain ⟨hTokens, hModes⟩ := enter position position' position position' c
        exact ⟨congrArg (List.cons _) hTokens, hModes⟩
  | string since since' chars =>
      rw [LexMode.step, LexMode.step]
      split_ifs
      · exact ⟨rfl, .gap _ _⟩
      · exact ⟨rfl, .string _ _ _⟩

/-- The tokens are the same, and so is the fault up to its position. The
induction is on the characters. -/
theorem lexFrom {mode mode' : LexMode} (h : Alike mode mode') (position position' : Nat)
    (cs : List Char) :
    ∃ place, PlotLang.lexFrom position' mode' cs =
      ((PlotLang.lexFrom position mode cs).1,
        (PlotLang.lexFrom position mode cs).2.map (SyntaxError.movedTo place)) := by
  induction cs generalizing position position' mode mode' with
  | nil =>
      cases h with
      | string since since' chars => exact ⟨since', rfl⟩
      | gap since since' => exact ⟨0, rfl⟩
      | comment => exact ⟨0, rfl⟩
      | word chars => exact ⟨0, rfl⟩
  | cons c cs ih =>
      obtain ⟨hTokens, hModes⟩ := h.step position position' c
      obtain ⟨place, hRest⟩ := ih hModes (position + 1) (position' + 1)
      exact ⟨place, by rw [lexFrom_cons, lexFrom_cons, hRest, hTokens]⟩

end LexMode.Alike

/-- A line break ends whatever the lexer is in the middle of, except a string. -/
theorem lexFrom_line_break (position : Nat) {mode : LexMode}
    (h : mode.finish.2 = none) (rest : List Char) :
    ∃ since, lexFrom position mode ('\n' :: rest) =
      (mode.finish.1 ++ (lexFrom (position + 1) (.gap since) rest).1,
        (lexFrom (position + 1) (.gap since) rest).2) := by
  have hEnter (since : Nat) : LexMode.enter since position '\n' = ([], .gap since) := by
    simp [LexMode.enter, Text.isBlank]
  have hBlank : isWordChar '\n' = false := by decide
  rw [lexFrom_cons]
  cases mode with
  | gap since => exact ⟨since, by simp only [LexMode.step, LexMode.finish, hEnter]⟩
  | comment => exact ⟨position, rfl⟩
  | word chars =>
      exact ⟨position, by simp [LexMode.step, LexMode.finish, hEnter, hBlank]⟩
  | string since chars => cases h

/-- The induction is on the characters in front of the line break. -/
theorem lexFrom_append_line {position : Nat} {mode : LexMode} {cs : List Char}
    (h : (lexFrom position mode cs).2 = none) (rest : List Char) :
    ∃ position' since, lexFrom position mode (cs ++ '\n' :: rest) =
      ((lexFrom position mode cs).1 ++ (lexFrom position' (.gap since) rest).1,
        (lexFrom position' (.gap since) rest).2) := by
  induction cs generalizing position mode with
  | nil =>
      obtain ⟨since, hBreak⟩ := lexFrom_line_break position h rest
      exact ⟨position + 1, since, hBreak⟩
  | cons c cs ih =>
      rw [lexFrom_cons] at h
      obtain ⟨position', since, hRest⟩ := ih h
      refine ⟨position', since, ?_⟩
      rw [List.cons_append, lexFrom_cons, lexFrom_cons, hRest, List.append_assoc]

/-- The tokens of two texts on lines of their own are those of the first and then
those of the second. -/
theorem lex_append_line {first : String} (h : (lex first).2 = none) (second : String) :
    ∃ place, lex (first ++ "\n" ++ second) =
      ((lex first).1 ++ (lex second).1, (lex second).2.map (SyntaxError.movedTo place)) := by
  obtain ⟨position, since, hLines⟩ := lexFrom_append_line h second.toList
  obtain ⟨place, hSecond⟩ :=
    (LexMode.Alike.gap 0 since).lexFrom 0 position second.toList
  have hText : (first ++ "\n" ++ second).toList = first.toList ++ '\n' :: second.toList := by
    simp
  refine ⟨place, ?_⟩
  rw [lex, hText, hLines, hSecond]
  rfl

/-! The reader. -/

namespace TokenStream

def movedTo (place : Nat) (s : TokenStream) : TokenStream :=
  { s with fault := s.fault.map (SyntaxError.movedTo place) }

/-- What is at fault with a token has no position. -/
theorem movedTo_of_readToken {r : ReadState} {t : Token} {e : SyntaxError}
    (h : readToken r t = .done (.error e)) (place : Nat) : e.movedTo place = e := by
  have hLexeme (l : Lexeme) (h : readToken r l.token = .done (.error e)) :
      e.movedTo place = e := by
    rw [readToken_lexeme] at h
    cases ha : l.atom? with
    | none =>
        rw [ha] at h
        cases h
        rfl
    | some a =>
        rw [ha] at h
        dsimp only at h
        split at h
        · cases h
        · exact absurd h (supply_ne_error _ _ _)
  cases t with
  | word text => exact hLexeme (.word text) h
  | string lexeme => exact hLexeme (.string lexeme) h
  | opening =>
      rw [readToken] at h
      split at h
      · cases h
        rfl
      · cases h
  | closing =>
      rw [readToken] at h
      split at h
      · exact absurd h (supply_ne_error _ _ _)
      · split at h
        · cases h
          rfl
        · exact absurd h (supply_ne_error _ _ _)

/-- What is read does not depend on where the fault behind it is reported. The
induction is on the tokens. -/
theorem readForm_movedTo (place : Nat) (fault : Option SyntaxError) (r : ReadState)
    (tokens : List Token) :
    readForm (fault.map (SyntaxError.movedTo place)) r tokens =
      match readForm fault r tokens with
      | .ok form s => .ok form (s.movedTo place)
      | .error e s => .error (e.movedTo place) (s.movedTo place) := by
  induction tokens generalizing r with
  | nil =>
      cases fault with
      | some e => rfl
      | none =>
          simp only [readForm, Option.map_none]
          split <;> rfl
  | cons t tokens ih =>
      rw [readForm_cons, readForm_cons]
      cases hRead : readToken r t with
      | more r' => exact ih r'
      | done answer =>
          cases answer with
          | ok form => rfl
          | error e =>
              simp only [resume, movedTo_of_readToken hRead]
              rfl

/-- Moving the fault of a stream moves nothing but the fault that is met. -/
theorem readForms_movedTo (place : Nat) (s : TokenStream) :
    (s.movedTo place).readForms =
      (s.readForms.1, s.readForms.2.map (SyntaxError.movedTo place)) := by
  have hParse (s : TokenStream) : parse (s.movedTo place) =
      match parse s with
      | .ok form s' => .ok form (s'.movedTo place)
      | .error e s' => .error (e.movedTo place) (s'.movedTo place) :=
    readForm_movedTo place s.fault {} s.pending
  fun_induction readForms s with
  | case1 s e s' hError =>
      have hMoved := hParse s
      rw [hError] at hMoved
      exact readForms_of_parse_error hMoved
  | case2 s s' hEnd =>
      have hMoved := hParse s
      rw [hEnd] at hMoved
      exact readForms_of_parse_end hMoved
  | case3 s form s' hForm forms fault hRest ih =>
      have hMoved := hParse s
      rw [hForm] at hMoved
      rw [readForms_of_parse hMoved, ih, hRest]

/-- The forms of derivations are read first, then what comes behind them. -/
theorem readForms_tokensAll (fault : Option SyntaxError) {δs : List Derivation} {es : List Expr}
    (hes : Derivation.exprs? δs = some es) (rest : List Token) :
    readForms ⟨none, Derivation.tokensAll δs ++ rest, fault⟩ =
      (es ++ (readForms ⟨none, rest, fault⟩).1, (readForms ⟨none, rest, fault⟩).2) := by
  induction δs generalizing es with
  | nil =>
      cases hes
      rfl
  | cons δ δs ih =>
      obtain ⟨e, es, he, hLater, rfl⟩ := Derivation.exprs?_cons.mp hes
      have hPending : pending ⟨none, Derivation.tokensAll (δ :: δs) ++ rest, fault⟩ =
          δ.tokens ++ (Derivation.tokensAll δs ++ rest) := by
        simp [pending, Derivation.tokensAll]
      rw [readForms_of_parse (parse_of_pending hPending he), ih hLater]
      rfl

end TokenStream

/-- Two texts on lines of their own are read as the forms of the first and then
those of the second, up to the position of a fault. -/
theorem readForms_append_line {first : String} {forms : List Expr}
    (h : readSource first = .ok forms) (second : String) :
    ∃ place, (TokenStream.ofSource (first ++ "\n" ++ second)).readForms =
      (forms ++ (TokenStream.ofSource second).readForms.1,
        (TokenStream.ofSource second).readForms.2.map (SyntaxError.movedTo place)) := by
  obtain ⟨δs, hDerives, hForms⟩ := readSource_eq_ok_iff.mp h
  obtain ⟨place, hLex⟩ := lex_append_line (congrArg Prod.snd hDerives) second
  have hStream : TokenStream.ofSource (first ++ "\n" ++ second) =
      ⟨none, Derivation.tokensAll δs ++ (lex second).1,
        (lex second).2.map (SyntaxError.movedTo place)⟩ := by
    rw [TokenStream.ofSource, hLex, hDerives]
  refine ⟨place, ?_⟩
  rw [hStream, TokenStream.readForms_tokensAll _ hForms]
  have hSecond := TokenStream.readForms_movedTo place (.ofSource second)
  change TokenStream.readForms
    ⟨none, (lex second).1, (lex second).2.map (SyntaxError.movedTo place)⟩ = _ at hSecond
  rw [hSecond]

end PlotLang
