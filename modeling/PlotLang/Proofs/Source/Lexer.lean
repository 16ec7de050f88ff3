import Mathlib.Tactic.SplitIfs
import PlotLang.Source.Lexer

/-! What the lexer makes of a text. Every word that it finds is the name of a
symbol, every string stands between its only two double quotes, and the one
fault is a string that is never closed. In the other direction, the texts of
tokens are read as these tokens, as long as a word is not followed at once by
more of its kind. -/
namespace PlotLang

/-- A token as the lexer finds it. -/
def Token.IsLexed : Token → Prop
  | .opening | .closing => True
  | .string lexeme => ∃ body, lexeme = String.ofList ('"' :: (body ++ ['"'])) ∧ '"' ∉ body
  | .word text => isSymbolName text = true

/-- The lexer is in the middle of what can become such a token. Characters are
kept in reverse. -/
def LexMode.IsLexed : LexMode → Prop
  | .gap _ | .comment => True
  | .word chars => chars ≠ [] ∧ ∀ c ∈ chars, isWordChar c = true
  | .string _ chars => ∃ body, chars = body ++ ['"'] ∧ '"' ∉ body

namespace LexMode

/-- A character in a gap begins a token of its kind or is one by itself. -/
theorem enter_isLexed (since position : Nat) (c : Char) :
    (∀ t ∈ (enter since position c).1, t.IsLexed) ∧ (enter since position c).2.IsLexed := by
  unfold enter
  split_ifs with hBlank hOpen hClose hComment hQuote
  · simp [IsLexed]
  · simp [IsLexed, Token.IsLexed]
  · simp [IsLexed, Token.IsLexed]
  · simp [IsLexed]
  · refine ⟨by simp, [], ?_, by simp⟩
    simpa using hQuote
  · simp_all [IsLexed, isWordChar, isDelimiter]

/-- What was collected as a word is one. -/
theorem word_isLexed {chars : List Char} (h : (word chars).IsLexed) :
    (Token.word (String.ofList chars.reverse)).IsLexed := by
  simpa [Token.IsLexed, isSymbolName, IsLexed] using h

/-- Each character keeps the mode in order and completes proper tokens only. -/
theorem step_isLexed {mode : LexMode} (h : mode.IsLexed) (position : Nat) (c : Char) :
    (∀ t ∈ (mode.step position c).1, t.IsLexed) ∧ (mode.step position c).2.IsLexed := by
  cases mode with
  | gap since => exact enter_isLexed since position c
  | comment =>
      rw [step]
      split_ifs <;> simp [IsLexed]
  | word chars =>
      rw [step]
      split_ifs with hWord
      · obtain ⟨_, hChars⟩ := h
        exact ⟨by simp, by simp, List.forall_mem_cons.mpr ⟨hWord, hChars⟩⟩
      · obtain ⟨hTokens, hMode⟩ := enter_isLexed position position c
        exact ⟨List.forall_mem_cons.mpr ⟨word_isLexed h, hTokens⟩, hMode⟩
  | string since chars =>
      obtain ⟨body, rfl, hBody⟩ := h
      rw [step]
      split_ifs with hQuote
      · have hc : c = '"' := by simpa using hQuote
        refine ⟨?_, trivial⟩
        simpa [Token.IsLexed, hc] using ⟨body.reverse, by simp, by simpa using hBody⟩
      · refine ⟨by simp, c :: body, rfl, ?_⟩
        have hc : c ≠ '"' := by simpa using hQuote
        simp [Ne.symm hc, hBody]

end LexMode

/-- One character gives its tokens and leads to the next mode. -/
theorem lexFrom_cons (position : Nat) (mode : LexMode) (c : Char) (cs : List Char) :
    lexFrom position mode (c :: cs) =
      ((mode.step position c).1 ++ (lexFrom (position + 1) (mode.step position c).2 cs).1,
        (lexFrom (position + 1) (mode.step position c).2 cs).2) := by
  rw [lexFrom]
  split
  · next h => simp [h]
  · next h => simp [h]

/-- The induction is on the characters; the mode is what it carries along. -/
theorem lexFrom_isLexed {mode : LexMode} (h : mode.IsLexed) (position : Nat) (cs : List Char) :
    ∀ t ∈ (lexFrom position mode cs).1, t.IsLexed := by
  induction cs generalizing position mode with
  | nil =>
      rw [lexFrom]
      cases mode with
      | word chars => simpa [LexMode.finish] using LexMode.word_isLexed h
      | _ => simp [LexMode.finish]
  | cons c cs ih =>
      obtain ⟨hTokens, hMode⟩ := LexMode.step_isLexed h position c
      rw [lexFrom_cons]
      intro t ht
      exact (List.mem_append.mp ht).elim (hTokens t) (ih hMode (position + 1) t)

/-- The only fault of the lexer is a string that is not closed. -/
theorem lexFrom_fault {position : Nat} {mode : LexMode} {cs : List Char} {e : SyntaxError}
    (h : (lexFrom position mode cs).2 = some e) : ∃ since, e = .unclosedString since := by
  induction cs generalizing position mode with
  | nil =>
      rw [lexFrom] at h
      cases mode with
      | string since chars => exact ⟨since, (Option.some.inj h).symm⟩
      | _ => cases h
  | cons c cs ih =>
      rw [lexFrom_cons] at h
      exact ih h

/-- Every token of a text has the shape of its kind. -/
theorem lex_isLexed (source : String) : ∀ t ∈ (lex source).1, t.IsLexed :=
  have hMode : (LexMode.gap 0).IsLexed := trivial
  lexFrom_isLexed hMode 0 source.toList

/-! Texts of tokens. -/

/-- The rest of a text does not go on with a word. -/
def Delimited (cs : List Char) : Prop := ∀ c ∈ cs.head?, isWordChar c = false

/-- What begins with a separator still does with more behind it. -/
theorem Delimited.append {cs rest : List Char} (h : Delimited cs) (hRest : Delimited rest) :
    Delimited (cs ++ rest) := by
  cases cs with
  | nil => exact hRest
  | cons c cs => exact h

/-- Between tokens, the characters are read as the tokens, whatever stands
before them and whatever comes after, short of more of a word. -/
def Spells (cs : List Char) (tokens : List Token) : Prop :=
  ∀ rest, Delimited rest → ∀ position since, ∃ position' since',
    lexFrom position (.gap since) (cs ++ rest) =
      (tokens ++ (lexFrom position' (.gap since') rest).1,
        (lexFrom position' (.gap since') rest).2)

namespace Spells

theorem nil : Spells [] [] := fun _ _ position since => ⟨position, since, rfl⟩

/-- Texts spell their tokens next to each other if a separator stands between. -/
theorem append {cs cs' : List Char} {tokens tokens' : List Token} (h : Spells cs tokens)
    (h' : Spells cs' tokens') (hApart : Delimited cs') :
    Spells (cs ++ cs') (tokens ++ tokens') := by
  intro rest hRest position since
  obtain ⟨position₁, since₁, hFirst⟩ := h (cs' ++ rest) (hApart.append hRest) position since
  obtain ⟨position₂, since₂, hSecond⟩ := h' rest hRest position₁ since₁
  refine ⟨position₂, since₂, ?_⟩
  rw [List.append_assoc, hFirst, hSecond, List.append_assoc]

theorem opening {cs : List Char} {tokens : List Token} (h : Spells cs tokens) :
    Spells ('(' :: cs) (.opening :: tokens) := by
  intro rest hRest position since
  obtain ⟨position', since', hLexed⟩ := h rest hRest (position + 1) (position + 1)
  refine ⟨position', since', ?_⟩
  rw [List.cons_append, lexFrom_cons]
  exact congrArg (fun answer => (Token.opening :: answer.1, answer.2)) hLexed

theorem closing : Spells [')'] [.closing] := by
  intro rest _ position since
  exact ⟨position + 1, position + 1, lexFrom_cons position (.gap since) ')' rest⟩

/-- Blanks spell nothing. -/
theorem blank {c : Char} (hBlank : Text.isBlank c = true) {cs : List Char} {tokens : List Token}
    (h : Spells cs tokens) : Spells (c :: cs) tokens := by
  intro rest hRest position since
  obtain ⟨position', since', hLexed⟩ := h rest hRest (position + 1) since
  refine ⟨position', since', ?_⟩
  rw [List.cons_append, lexFrom_cons]
  simp [LexMode.step, LexMode.enter, hBlank, hLexed]

/-- A word goes on to the first character that is not of its kind. The induction
is on the characters that are left of it. -/
theorem lexFrom_word {cs : List Char} (hWord : ∀ c ∈ cs, isWordChar c = true) {rest : List Char}
    (hRest : Delimited rest) (chars : List Char) (position : Nat) :
    lexFrom position (.word chars) (cs ++ rest) =
      (.word (String.ofList (chars.reverse ++ cs)) ::
          (lexFrom (position + cs.length) (.gap (position + cs.length)) rest).1,
        (lexFrom (position + cs.length) (.gap (position + cs.length)) rest).2) := by
  induction cs generalizing chars position with
  | nil =>
      cases rest with
      | nil => simp [lexFrom, LexMode.finish]
      | cons c rest =>
          have hc : isWordChar c = false := hRest c rfl
          simp [lexFrom_cons, LexMode.step, hc]
  | cons c cs ih =>
      obtain ⟨hc, hcs⟩ := List.forall_mem_cons.mp hWord
      have hPosition : position + (c :: cs).length = position + 1 + cs.length := by
        rw [List.length_cons]
        omega
      rw [List.cons_append, lexFrom_cons]
      simp only [LexMode.step, hc, if_true, ih hcs, hPosition]
      simp

/-- Between tokens, the name of a symbol is a word. -/
theorem lexFrom_name {text : String} (h : isSymbolName text = true) {rest : List Char}
    (hRest : Delimited rest) (position since : Nat) :
    lexFrom position (.gap since) (text.toList ++ rest) =
      (.word text :: (lexFrom (position + text.length) (.gap (position + text.length)) rest).1,
        (lexFrom (position + text.length) (.gap (position + text.length)) rest).2) := by
  obtain ⟨hSome, hWord⟩ : text.toList ≠ [] ∧ ∀ c ∈ text.toList, isWordChar c = true := by
    simpa [isSymbolName] using h
  obtain ⟨c, cs, hText⟩ := List.exists_cons_of_ne_nil hSome
  rw [hText] at hWord ⊢
  obtain ⟨hc, hcs⟩ := List.forall_mem_cons.mp hWord
  have hEnter : LexMode.enter since position c = ([], .word [c]) := by
    simp_all [LexMode.enter, isWordChar, isDelimiter]
  have hWhole : String.ofList ([c].reverse ++ cs) = text := by simp [← hText]
  have hPosition : position + text.length = position + 1 + cs.length := by
    rw [← String.length_toList, hText, List.length_cons]
    omega
  rw [List.cons_append, lexFrom_cons]
  simp only [LexMode.step, hEnter, lexFrom_word hcs hRest, hWhole, hPosition]
  rfl

/-- A name spells the word it is. -/
theorem word {text : String} (h : isSymbolName text = true) : Spells text.toList [.word text] :=
  fun _ hRest position since => ⟨_, _, lexFrom_name h hRest position since⟩

/-- A string goes on to the next double quote, whatever it holds. -/
theorem lexFrom_string {body : List Char} (hBody : '"' ∉ body) (rest chars : List Char)
    (position since : Nat) :
    lexFrom position (.string since chars) (body ++ '"' :: rest) =
      (.string (String.ofList (chars.reverse ++ body ++ ['"'])) ::
          (lexFrom (position + body.length + 1) (.gap (position + body.length + 1)) rest).1,
        (lexFrom (position + body.length + 1) (.gap (position + body.length + 1)) rest).2) := by
  induction body generalizing chars position with
  | nil => simp [lexFrom_cons, LexMode.step]
  | cons c body ih =>
      obtain ⟨hc, hRest⟩ : '"' ≠ c ∧ '"' ∉ body := by simpa using hBody
      have hPosition : position + (c :: body).length = position + 1 + body.length := by
        rw [List.length_cons]
        omega
      rw [List.cons_append, lexFrom_cons, hPosition]
      simp [LexMode.step, Ne.symm hc, ih hRest]

/-- Between tokens, a double quote begins a string, whatever comes after it. -/
theorem lexFrom_quoted {body : List Char} (hBody : '"' ∉ body) (rest : List Char)
    (position since : Nat) :
    lexFrom position (.gap since) ('"' :: (body ++ ['"']) ++ rest) =
      (.string (String.ofList ('"' :: (body ++ ['"']))) ::
          (lexFrom (position + 1 + body.length + 1) (.gap (position + 1 + body.length + 1)) rest).1,
        (lexFrom (position + 1 + body.length + 1)
          (.gap (position + 1 + body.length + 1)) rest).2) := by
  have hEnter : LexMode.enter since position '"' = ([], .string since ['"']) := by
    simp [LexMode.enter, Text.isBlank]
  rw [List.cons_append, lexFrom_cons, List.append_assoc]
  simp [LexMode.step, hEnter, lexFrom_string hBody]

/-- A text between quotes spells a string. -/
theorem string {body : List Char} (hBody : '"' ∉ body) :
    Spells ('"' :: (body ++ ['"'])) [.string (String.ofList ('"' :: (body ++ ['"'])))] :=
  fun rest _ position since => ⟨_, _, lexFrom_quoted hBody rest position since⟩

/-- A text that spells tokens is read as these, without a fault. -/
theorem lex {text : String} {tokens : List Token} (h : Spells text.toList tokens) :
    PlotLang.lex text = (tokens, none) := by
  obtain ⟨position, since, hLexed⟩ := h [] (by simp [Delimited]) 0 0
  simpa [PlotLang.lex, lexFrom, LexMode.finish] using hLexed

end Spells

end PlotLang
