import PlotLang.Proofs.Source.Decomposition

/-! Where the lexer reports its fault. The message quotes the double quote that is
never closed, and gives the position behind the last token or comment. Blanks may
stand between the two: the position is that of the quote only if there are none. -/
namespace PlotLang

namespace Decomposition

/-- Where the tokens end, in a text that begins at a position. -/
def ends (start : Nat) : Decomposition → List Nat
  | ending _ _ => []
  | token gap t later =>
    (start + gap.length + t.text.length) :: later.ends (start + gap.length + t.text.length)

/-- The text is what was read, the gap behind it and the remainder. -/
theorem text_eq (d : Decomposition) : d.text = d.front ++ (d.lastGap ++ d.remainder) := by
  induction d with
  | ending gap rest => rfl
  | token gap t later ih => simp [text, front, lastGap, remainder, ih]

/-- No token or comment ends behind the front of the text. -/
theorem ends_le (d : Decomposition) (start : Nat) :
    ∀ n ∈ d.ends start, n ≤ start + d.front.length := by
  induction d generalizing start with
  | ending gap rest => simp [ends]
  | token gap t later ih =>
      have hLength : (front (.token gap t later)).length =
          gap.length + t.text.length + later.front.length := by
        simp [front, String.length_toList, Nat.add_assoc]
      rw [ends, hLength]
      refine List.forall_mem_cons.mpr ⟨by omega, fun n hn => ?_⟩
      have hLater := ih _ n hn
      omega

theorem Fits.isUnclosed {d : Decomposition} {front : List Char} (h : d.Fits front) :
    IsUnclosed d.remainder := by
  induction d generalizing front with
  | ending gap rest => exact h.2
  | token gap t later ih => exact ih h.2.2

end Decomposition

theorem Text.quote_doubleQuote : Text.quote "\"" = "'\"'" := by
  have hPrintable : Text.isPrintable '"' = true := by
    rw [Text.isPrintable, ← Array.any_toList]
    decide +kernel
  simp [Text.quote, Text.enclosingQuote, Text.escapeChar, hPrintable]

/-- The message quotes the quote and not the character at the position. -/
theorem SyntaxError.message_unclosedString (position : Nat) :
    (unclosedString position).message =
      "Unexpected char at " ++ toString position ++ ": '\"'" := by
  have hQuoted : ": " ++ Text.quote "\"" = ": '\"'" := by
    rw [Text.quote_doubleQuote]
    decide
  show "Unexpected char at " ++ toString position ++ ": " ++ Text.quote "\"" = _
  rw [String.append_assoc, hQuoted]

/-- The fault of a text is a double quote that is never closed, and the message
quotes it. The position in the message is where the last token or comment in
front of it ends, so all tokens end there or before. Up to the quote there are
only blanks, and the position is that of the quote exactly if there are none. -/
theorem lex_fault_position {source : String} {e : SyntaxError} (h : (lex source).2 = some e) :
    ∃ (d : Decomposition) (comments blanks body : List Char),
      d.IsOf source ∧ (lex source).1 = d.tokens ∧
      source.toList = d.front ++ comments ++ blanks ++ '"' :: body ∧ '"' ∉ body ∧
      IsGap.Cut ('"' :: body) d.lastGap comments blanks ∧
      let position := (d.front ++ comments).length
      e = .unclosedString position ∧
      e.message = "Unexpected char at " ++ toString position ++ ": '\"'" ∧
      (∀ n ∈ d.ends 0, n ≤ position) ∧
      source.toList[position + blanks.length]? = some '"' ∧
      (source.toList[position]? = some '"' ↔ blanks = []) := by
  have hStart : Apart [] source.toList := .inl (by simp [Ended])
  obtain ⟨d, hText, hFits⟩ := Decomposition.exists_fits hStart
  have hOf : d.IsOf source := ⟨hText, hFits⟩
  obtain ⟨position, ⟨comments, blanks, hCut, hPosition⟩, hLex⟩ := hOf.lex_reports
  have hFault : d.remainder ≠ [] := by
    intro hNone
    rw [hLex, if_pos hNone] at h
    cases h
  obtain ⟨body, hRest, hBody⟩ := hFits.isUnclosed.resolve_left hFault
  have hSource : source.toList = d.front ++ comments ++ blanks ++ '"' :: body := by
    rw [← hText, d.text_eq, hCut.append, hRest]
    simp
  have hError : e = .unclosedString (d.front ++ comments).length := by
    rw [hLex, if_neg hFault] at h
    rw [← Option.some.inj h, hPosition, Nat.zero_add, List.length_append]
  refine ⟨d, comments, blanks, body, hOf, congrArg Prod.fst hLex, hSource, hBody, hRest ▸ hCut,
    hError, ?_, ?_, ?_, ?_⟩
  · rw [hError, SyntaxError.message_unclosedString]
  · intro n hn
    have hFront := d.ends_le 0 n hn
    rw [List.length_append]
    omega
  · rw [hSource, ← List.length_append]
    simp
  · rw [hSource, List.append_assoc _ blanks, List.getElem?_append_right (Nat.le_refl _),
      Nat.sub_self]
    cases blanks with
    | nil => simp
    | cons c blanks =>
        have hBlank : Text.isBlank c = true := hCut.blank c List.mem_cons_self
        have hQuote : c ≠ '"' := by
          rintro rfl
          cases hBlank
        simpa using hQuote

/-- Behind a comment, the position is that of the line break. -/
theorem lex_fault_position_comment :
    let source := "a ;b\n \"c"
    lex source = ([.word "a"], some (.unclosedString 4)) ∧
    ∃ (d : Decomposition) (blanks : List Char), d.IsOf source ∧ [.word "a"] = d.tokens ∧
      (∀ n ∈ d.ends 0, n ≤ 4) ∧ source.toList[4 + blanks.length]? = some '"' ∧ blanks ≠ [] := by
  intro source
  have hLex : lex source = ([.word "a"], some (.unclosedString 4)) := by decide +kernel
  obtain ⟨d, comments, blanks, body, hOf, hTokens, _, _, _, hError, _, hEnds, hQuote, hBlanks⟩ :=
    lex_fault_position (congrArg Prod.snd hLex)
  have hPosition : (d.front ++ comments).length = 4 := (SyntaxError.unclosedString.inj hError).symm
  rw [hPosition] at hEnds hQuote hBlanks
  rw [hLex] at hTokens
  refine ⟨hLex, d, blanks, hOf, hTokens, hEnds, hQuote, fun hNone => ?_⟩
  have hBreak : source.toList[4]? = some '\n' := by decide +kernel
  have hFound : source.toList[4]? = some '"' := hBlanks.mpr hNone
  rw [hBreak] at hFound
  cases hFound

/-- A blank in front of the quote is enough to make the message wrong: the
character at the position that it gives is not the one that it quotes. -/
theorem lex_fault_position_blank :
    (lex "a \"b").2 = some (.unclosedString 1) ∧
    (SyntaxError.unclosedString 1).message = "Unexpected char at 1: '\"'" ∧
    "a \"b".toList[1]? = some ' ' ∧
    ¬ ∀ (source : String) (position : Nat),
      (lex source).2 = some (.unclosedString position) → source.toList[position]? = some '"' := by
  have hLex : (lex "a \"b").2 = some (.unclosedString 1) := by decide +kernel
  have hBlank : "a \"b".toList[1]? = some ' ' := by decide +kernel
  refine ⟨hLex, SyntaxError.message_unclosedString 1, hBlank, fun hAlways => ?_⟩
  have hQuote := hAlways _ _ hLex
  rw [hBlank] at hQuote
  cases hQuote

end PlotLang
