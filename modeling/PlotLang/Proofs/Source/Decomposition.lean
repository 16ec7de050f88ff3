import Mathlib.Logic.ExistsUnique
import PlotLang.Proofs.Source.Lexer

/-! The parts of a text. A text is cut in exactly one way into tokens, the gaps
around them and a rest, which is empty unless a double quote is never closed. The
parts are described by what each of them looks like where it stands, without the
lexer; the lexer finds these tokens, and it is at fault exactly if there is a
rest. -/
namespace PlotLang

/-- A line ends here, or the text does. -/
def EndsLine (cs : List Char) : Prop := ∀ c ∈ cs.head?, c = '\n'

/-- Blanks and whole comments in front of the rest of a text. A comment goes up
to the next line break, which is a blank of its own, or to the end of the text. -/
inductive IsGap (rest : List Char) : List Char → Prop where
  | nil : IsGap rest []
  | blank {c : Char} {cs : List Char} (hBlank : Text.isBlank c = true) (hLater : IsGap rest cs) :
      IsGap rest (c :: cs)
  | comment {body cs : List Char} (hBody : '\n' ∉ body) (hEnd : EndsLine (cs ++ rest))
      (hLater : IsGap rest cs) : IsGap rest (';' :: (body ++ cs))

/-- A gap cut behind its last comment: what comes after are blanks. -/
structure IsGap.Cut (rest gap comments blanks : List Char) : Prop where
  append : gap = comments ++ blanks
  comment : comments = [] ∨
    (∃ before body, comments = before ++ ';' :: body ∧ '\n' ∉ body) ∧ EndsLine (blanks ++ rest)
  blank : ∀ c ∈ blanks, Text.isBlank c = true

/-- Nothing, or a double quote that is never closed. -/
def IsUnclosed (cs : List Char) : Prop := cs = [] ∨ ∃ body, cs = '"' :: body ∧ '"' ∉ body

/-- The text so far does not end in a character of words. -/
def Ended (cs : List Char) : Prop := ∀ c ∈ cs.getLast?, isWordChar c = false

/-- A token where it stands, between the text in front of it and the text behind
it. A word is as long as it can be on either side. -/
def Token.Stands (front back : List Char) : Token → Prop
  | .word text => isSymbolName text = true ∧ Ended front ∧ Delimited back
  | t => t.IsLexed

/-- A text in parts: gaps and tokens in turn, and a rest behind the last gap. -/
inductive Decomposition where
  | ending (gap rest : List Char)
  | token (gap : List Char) (t : Token) (later : Decomposition)

namespace Decomposition

def text : Decomposition → List Char
  | ending gap rest => gap ++ rest
  | token gap t later => gap ++ (t.text.toList ++ later.text)

def tokens : Decomposition → List Token
  | ending _ _ => []
  | token _ t later => t :: later.tokens

/-- What stands behind the last gap. -/
def remainder : Decomposition → List Char
  | ending _ rest => rest
  | token _ _ later => later.remainder

/-- The gap behind the last token. -/
def lastGap : Decomposition → List Char
  | ending gap _ => gap
  | token _ _ later => later.lastGap

/-- The text up to the end of the last token. -/
def front : Decomposition → List Char
  | ending _ _ => []
  | token gap t later => gap ++ (t.text.toList ++ later.front)

/-- Every part is what it should be where it stands. -/
def Fits (front : List Char) : Decomposition → Prop
  | ending gap rest => IsGap rest gap ∧ IsUnclosed rest
  | token gap t later =>
    IsGap (t.text.toList ++ later.text) gap ∧ t.Stands (front ++ gap) later.text ∧
      later.Fits (front ++ gap ++ t.text.toList)

/-- Behind the last token and the last comment of a text that begins at a
position. -/
def Reports (d : Decomposition) (start position : Nat) : Prop :=
  ∃ comments blanks, IsGap.Cut d.remainder d.lastGap comments blanks ∧
    position = start + d.front.length + comments.length

/-- The parts are those of a source text. -/
def IsOf (source : String) (d : Decomposition) : Prop := d.text = source.toList ∧ d.Fits []

end Decomposition

/-! The lexer on each kind of part. -/

/-- In a comment all characters are skipped up to the line break. -/
theorem lexFrom_comment {body : List Char} (hBody : '\n' ∉ body) (rest : List Char)
    (position : Nat) :
    lexFrom position .comment (body ++ rest) = lexFrom (position + body.length) .comment rest := by
  induction body generalizing position with
  | nil => rfl
  | cons c body ih =>
      obtain ⟨hc, hLater⟩ : '\n' ≠ c ∧ '\n' ∉ body := by simpa using hBody
      rw [List.cons_append, lexFrom_cons]
      simp only [LexMode.step, beq_iff_eq, Ne.symm hc, if_false, List.nil_append]
      rw [ih hLater, List.length_cons, Nat.add_assoc, Nat.add_comm 1]

/-- The end of a line ends a comment as if the comment had not been there. -/
theorem lexFrom_comment_end {rest : List Char} (hEnd : EndsLine rest) (position : Nat) :
    lexFrom position .comment rest = lexFrom position (.gap position) rest := by
  cases rest with
  | nil => rfl
  | cons c rest =>
      obtain rfl : c = '\n' := hEnd c rfl
      rw [lexFrom_cons, lexFrom_cons]
      rfl

namespace IsGap.Cut
variable {rest gap comments blanks : List Char} (h : Cut rest gap comments blanks)
include h

/-- A blank in front of a comment belongs to the part of the gap that ends with
the last comment. -/
theorem blank_cons {c : Char} (hSome : comments ≠ []) :
    Cut rest (c :: gap) (c :: comments) blanks := by
  obtain ⟨⟨before, body, hLast, hBody⟩, hEnd⟩ := h.comment.resolve_left hSome
  refine ⟨congrArg (List.cons c) h.append, .inr ⟨⟨c :: before, body, ?_, hBody⟩, hEnd⟩, h.blank⟩
  rw [hLast, List.cons_append]

/-- A comment in front of a gap is cut off with the comments behind it. -/
theorem comment_append {body : List Char} (hBody : '\n' ∉ body) (hEnd : EndsLine (gap ++ rest)) :
    Cut rest (';' :: (body ++ gap)) (';' :: (body ++ comments)) blanks := by
  obtain ⟨rfl, hComment, hBlanks⟩ := h
  refine ⟨by simp, .inr ?_, hBlanks⟩
  rcases hComment with rfl | ⟨⟨before, last, rfl, hLast⟩, hEnd'⟩
  · exact ⟨⟨[], body, by simp, hBody⟩, hEnd⟩
  · exact ⟨⟨';' :: (body ++ before), last, by simp, hLast⟩, hEnd'⟩

end IsGap.Cut

/-- A gap is as old as its last comment, and without one as old as it was before.
The induction is on the gap. -/
theorem lexFrom_gap {rest gap : List Char} (h : IsGap rest gap) (position since : Nat) :
    ∃ comments blanks, IsGap.Cut rest gap comments blanks ∧
      lexFrom position (.gap since) (gap ++ rest) =
        lexFrom (position + gap.length)
          (.gap (if comments = [] then since else position + comments.length)) rest := by
  induction h generalizing position since with
  | nil => exact ⟨[], [], ⟨rfl, .inl rfl, by simp⟩, rfl⟩
  | @blank c cs hBlank _ ih =>
      obtain ⟨comments, blanks, hCut, hLater⟩ := ih (position + 1) since
      have hStep : lexFrom position (.gap since) (c :: cs ++ rest) =
          lexFrom (position + 1) (.gap since) (cs ++ rest) := by
        rw [List.cons_append, lexFrom_cons]
        simp only [LexMode.step, LexMode.enter, hBlank, if_true, List.nil_append]
      rw [hStep, hLater, List.length_cons, Nat.add_assoc, Nat.add_comm 1]
      by_cases hNone : comments = []
      · subst hNone
        have hBlanks : ∀ c' ∈ c :: blanks, Text.isBlank c' = true :=
          List.forall_mem_cons.mpr ⟨hBlank, hCut.blank⟩
        exact ⟨[], c :: blanks, ⟨congrArg (List.cons c) hCut.append, .inl rfl, hBlanks⟩, rfl⟩
      · refine ⟨c :: comments, blanks, hCut.blank_cons hNone, ?_⟩
        rw [if_neg hNone, if_neg (List.cons_ne_nil _ _), List.length_cons, Nat.add_assoc,
          Nat.add_comm 1]
  | @comment body cs hBody hEnd _ ih =>
      obtain ⟨comments, blanks, hCut, hLater⟩ :=
        ih (position + 1 + body.length) (position + 1 + body.length)
      refine ⟨';' :: (body ++ comments), blanks, hCut.comment_append hBody hEnd, ?_⟩
      -- Behind a comment the gap begins anew, so it does not matter whether more comments follow.
      have hSince : (if comments = [] then position + 1 + body.length
          else position + 1 + body.length + comments.length) =
          position + (';' :: (body ++ comments)).length := by
        rw [List.length_cons, List.length_append]
        split
        · next hNone =>
            rw [hNone, List.length_nil]
            omega
        · omega
      have hPosition : position + 1 + body.length + cs.length =
          position + (';' :: (body ++ cs)).length := by
        rw [List.length_cons, List.length_append]
        omega
      calc lexFrom position (.gap since) (';' :: (body ++ cs) ++ rest)
        _ = lexFrom (position + 1) .comment (body ++ (cs ++ rest)) := by
            rw [List.cons_append, lexFrom_cons, List.append_assoc]
            rfl
        _ = lexFrom (position + 1 + body.length) (.gap (position + 1 + body.length))
              (cs ++ rest) := by
            rw [lexFrom_comment hBody, lexFrom_comment_end hEnd]
        _ = _ := by
            rw [hLater, hSince, hPosition, if_neg (List.cons_ne_nil _ _)]

/-- A token that stands apart from what follows is read as itself, and reading
goes on in a gap that begins where it ends. -/
theorem lexFrom_token {front back : List Char} {t : Token} (h : t.Stands front back)
    (position since : Nat) :
    lexFrom position (.gap since) (t.text.toList ++ back) =
      (t :: (lexFrom (position + t.text.length) (.gap (position + t.text.length)) back).1,
        (lexFrom (position + t.text.length) (.gap (position + t.text.length)) back).2) := by
  cases t with
  | opening => exact lexFrom_cons position (.gap since) '(' back
  | closing => exact lexFrom_cons position (.gap since) ')' back
  | word text =>
      obtain ⟨hName, _, hBack⟩ := h
      exact Spells.lexFrom_name hName hBack position since
  | string lexeme =>
      obtain ⟨body, rfl, hBody⟩ := h
      have hLength :
          position + ('"' :: (body ++ ['"'])).length = position + 1 + body.length + 1 := by
        rw [List.length_cons, List.length_append]
        simp
        omega
      simp only [Token.text, String.toList_ofList, String.length_ofList, hLength]
      exact Spells.lexFrom_quoted hBody back position since

/-- A string that is never closed ends in the fault, whatever else it contains. -/
theorem lexFrom_open_string {body : List Char} (hBody : '"' ∉ body) (position since : Nat)
    (chars : List Char) :
    lexFrom position (.string since chars) body = ([], some (.unclosedString since)) := by
  induction body generalizing position chars with
  | nil => rfl
  | cons c body ih =>
      obtain ⟨hc, hLater⟩ : '"' ≠ c ∧ '"' ∉ body := by simpa using hBody
      rw [lexFrom_cons]
      simp only [LexMode.step, beq_iff_eq, Ne.symm hc, if_false, List.nil_append, ih hLater]

/-- A remainder is empty, or a quote that is never closed. -/
theorem lexFrom_unclosed {rest : List Char} (h : IsUnclosed rest) (position since : Nat) :
    lexFrom position (.gap since) rest =
      ([], if rest = [] then none else some (.unclosedString since)) := by
  rcases h with rfl | ⟨body, rfl, hBody⟩
  · rfl
  · rw [lexFrom_cons]
    simp [LexMode.step, LexMode.enter, Text.isBlank, lexFrom_open_string hBody]

namespace Decomposition

/-- The lexer finds the tokens, and reports a rest behind the last of them. The
induction is on the parts. -/
theorem lexFrom_text {d : Decomposition} {front : List Char} (h : d.Fits front) (start : Nat) :
    ∃ position, d.Reports start position ∧ lexFrom start (.gap start) d.text =
      (d.tokens, if d.remainder = [] then none else some (.unclosedString position)) := by
  induction d generalizing front start with
  | ending gap rest =>
      obtain ⟨hGap, hRest⟩ := h
      obtain ⟨comments, blanks, hCut, hLexed⟩ := lexFrom_gap hGap start start
      refine ⟨_, ⟨comments, blanks, hCut, rfl⟩, hLexed.trans ?_⟩
      have hSince : (if comments = [] then start else start + comments.length) =
          start + comments.length := by
        split
        · next hNone => rw [hNone, List.length_nil, Nat.add_zero]
        · rfl
      rw [hSince]
      exact lexFrom_unclosed hRest _ _
  | token gap t later ih =>
      obtain ⟨hGap, hToken, hLater⟩ := h
      obtain ⟨_, _, _, hSkipped⟩ := lexFrom_gap hGap start start
      obtain ⟨position, ⟨comments, blanks, hCut, hPosition⟩, hLexed⟩ :=
        ih hLater (start + gap.length + t.text.length)
      refine ⟨position, ⟨comments, blanks, hCut, ?_⟩, ?_⟩
      · rw [hPosition, Decomposition.front, List.length_append, List.length_append,
          String.length_toList]
        omega
      · rw [text, hSkipped, lexFrom_token hToken, hLexed]
        rfl

end Decomposition

/-! Every text has parts. -/

/-- The text does not begin with a gap. -/
def Begins (cs : List Char) : Prop := ∀ c ∈ cs.head?, Text.isBlank c = false ∧ c ≠ ';'

/-- No word goes on from the one text into the other. -/
def Apart (front back : List Char) : Prop := Ended front ∨ Delimited back

theorem ended_concat {c : Char} (hc : isWordChar c = false) (cs : List Char) :
    Ended (cs ++ [c]) := by
  intro c' hLast
  rw [List.getLast?_concat] at hLast
  cases hLast
  exact hc

/-- A list begins with a longest run of characters of a kind. -/
theorem exists_run (p : Char → Bool) (cs : List Char) :
    ∃ run rest, cs = run ++ rest ∧ (∀ c ∈ run, p c = true) ∧ ∀ c ∈ rest.head?, p c = false := by
  refine ⟨cs.takeWhile p, cs.dropWhile p, List.takeWhile_append_dropWhile.symm, ?_, ?_⟩
  · exact List.all_eq_true.mp List.all_takeWhile
  · intro c hc
    have hHead := List.head?_dropWhile_not p cs
    rw [Option.mem_def.mp hc] at hHead
    exact hHead

/-- The induction is on the length of the text, as a comment is skipped at once. -/
theorem exists_gap (cs : List Char) :
    ∃ gap rest, cs = gap ++ rest ∧ IsGap rest gap ∧ Begins rest := by
  induction hLength : cs.length using Nat.strongRecOn generalizing cs with
  | ind n ih =>
      subst hLength
      cases cs with
      | nil => exact ⟨[], [], rfl, .nil, by simp [Begins]⟩
      | cons c cs =>
          by_cases hBlank : Text.isBlank c = true
          · obtain ⟨gap, rest, rfl, hGap, hRest⟩ := ih cs.length (by simp) cs rfl
            exact ⟨c :: gap, rest, rfl, .blank hBlank hGap, hRest⟩
          by_cases hComment : c = ';'
          · obtain ⟨body, later, rfl, hBody, hLater⟩ := exists_run (· != '\n') cs
            have hShorter : later.length < (c :: (body ++ later)).length := by
              rw [List.length_cons, List.length_append]
              omega
            obtain ⟨gap, rest, rfl, hGap, hRest⟩ := ih later.length hShorter later rfl
            have hLine : '\n' ∉ body := fun hMember => by simpa using hBody _ hMember
            have hEnd : EndsLine (gap ++ rest) := fun c hc => by simpa using hLater c hc
            exact ⟨';' :: (body ++ gap), rest, by simp [hComment], .comment hLine hEnd hGap, hRest⟩
          · refine ⟨[], c :: cs, rfl, .nil, ?_⟩
            simpa [Begins, hBlank] using hComment

/-- A gap keeps what is around it apart. -/
theorem IsGap.apart {rest gap : List Char} (h : IsGap rest gap) {front : List Char}
    (hApart : Apart front (gap ++ rest)) : Apart (front ++ gap) rest := by
  induction h generalizing front with
  | nil => simpa using hApart
  | @blank c cs hBlank _ ih =>
      have hEnded : Ended (front ++ [c]) := ended_concat (by simp [isWordChar, hBlank]) front
      simpa using ih (.inl hEnded)
  | @comment body cs _ hEnd _ ih =>
      have hDelimited : Delimited (cs ++ rest) := by
        intro c hc
        rw [hEnd c hc]
        decide
      have hLater : Apart (front ++ (';' :: body)) (cs ++ rest) := .inr hDelimited
      simpa using ih hLater

/-- What begins with no gap begins with a token, or with a double quote that is
never closed. -/
theorem exists_token {cs : List Char} (hBegins : Begins cs) :
    IsUnclosed cs ∨ ∃ (t : Token) (back : List Char), cs = t.text.toList ++ back ∧
      t.text.toList ≠ [] ∧
      ∀ front, Apart front cs → t.Stands front back ∧ Apart (front ++ t.text.toList) back := by
  cases cs with
  | nil => exact .inl (.inl rfl)
  | cons c cs =>
      obtain ⟨hBlank, hComment⟩ := hBegins c rfl
      by_cases hOpen : c = '('
      · refine .inr ⟨.opening, cs, by simp [hOpen, Token.text], by simp [Token.text], ?_⟩
        exact fun front _ => ⟨trivial, .inl (ended_concat (by decide) front)⟩
      by_cases hClose : c = ')'
      · refine .inr ⟨.closing, cs, by simp [hClose, Token.text], by simp [Token.text], ?_⟩
        exact fun front _ => ⟨trivial, .inl (ended_concat (by decide) front)⟩
      by_cases hQuote : c = '"'
      · subst hQuote
        obtain ⟨body, later, rfl, hBody, hLater⟩ := exists_run (· != '"') cs
        have hInner : '"' ∉ body := fun hMember => by simpa using hBody _ hMember
        cases later with
        | nil => exact .inl (.inr ⟨body, by simp, hInner⟩)
        | cons c back =>
            obtain rfl : c = '"' := by simpa using hLater c rfl
            let t : Token := .string (String.ofList ('"' :: (body ++ ['"'])))
            have hText : t.text.toList = '"' :: (body ++ ['"']) := by simp [t, Token.text]
            refine .inr ⟨t, back, by simp [hText], by simp [hText], fun front _ => ?_⟩
            have hEnded := ended_concat (c := '"') (by decide) (front ++ '"' :: body)
            exact ⟨⟨body, rfl, hInner⟩, .inl (by simpa [hText] using hEnded)⟩
      · have hWord : isWordChar c = true := by simp_all [isWordChar, isDelimiter]
        obtain ⟨later, back, rfl, hLater, hBack⟩ := exists_run isWordChar cs
        let t : Token := .word (String.ofList (c :: later))
        have hText : t.text.toList = c :: later := by simp [t, Token.text]
        have hName : isSymbolName (String.ofList (c :: later)) = true := by
          simpa [isSymbolName, hWord] using hLater
        refine .inr ⟨t, back, by simp [hText], by simp [hText], fun front hApart => ?_⟩
        have hEnded : Ended front := hApart.resolve_right fun h => by
          simpa [hWord] using h c rfl
        exact ⟨⟨hName, hEnded, hBack⟩, .inr hBack⟩

namespace Decomposition

/-- Every text can be taken apart. The induction is on its length, and each step
takes a gap or a token off the front. -/
theorem exists_fits {cs front : List Char} (hApart : Apart front cs) :
    ∃ d : Decomposition, d.text = cs ∧ d.Fits front := by
  induction hLength : cs.length using Nat.strongRecOn generalizing cs front with
  | ind n ih =>
      subst hLength
      obtain ⟨gap, rest, rfl, hGap, hRest⟩ := exists_gap cs
      rcases exists_token hRest with hUnclosed | ⟨t, back, rfl, hSome, hStands⟩
      · exact ⟨.ending gap rest, rfl, hGap, hUnclosed⟩
      · obtain ⟨hToken, hLater⟩ := hStands (front ++ gap) (hGap.apart hApart)
        have hShorter : back.length < (gap ++ (t.text.toList ++ back)).length := by
          have hPositive := List.length_pos_iff.mpr hSome
          simp only [List.length_append]
          omega
        obtain ⟨later, rfl, hFits⟩ := ih back.length hShorter hLater rfl
        exact ⟨.token gap t later, rfl, hGap, hToken, hFits⟩

end Decomposition

/-! No text has other parts. -/

/-- Only the end of a line ends a comment, so two texts that begin with the same
comment agree on where it ends. -/
theorem append_eq_of_endsLine {body body' rest rest' : List Char} (hBody : '\n' ∉ body)
    (hBody' : '\n' ∉ body') (hEnd : EndsLine rest) (hEnd' : EndsLine rest')
    (h : body ++ rest = body' ++ rest') : body = body' ∧ rest = rest' := by
  induction body generalizing body' with
  | nil =>
      cases body' with
      | nil => exact ⟨rfl, h⟩
      | cons c body' =>
          rw [List.nil_append] at h
          have hc : c = '\n' := hEnd c (by simp [h])
          simp [hc] at hBody'
  | cons c body ih =>
      cases body' with
      | nil =>
          rw [List.nil_append] at h
          have hc : c = '\n' := hEnd' c (by simp [← h])
          simp [hc] at hBody
      | cons c' body' =>
          obtain ⟨rfl, hLater⟩ := List.cons.inj h
          obtain ⟨rfl, hRest⟩ := ih (fun hc => hBody (List.mem_cons_of_mem _ hc))
            (fun hc => hBody' (List.mem_cons_of_mem _ hc)) hLater
          exact ⟨rfl, hRest⟩

/-- A gap goes on for as long as it can. -/
theorem IsGap.append_eq {gap gap' rest rest' : List Char} (hGap : IsGap rest gap)
    (hGap' : IsGap rest' gap') (hRest : Begins rest) (hRest' : Begins rest')
    (h : gap ++ rest = gap' ++ rest') : gap = gap' ∧ rest = rest' := by
  have hSemicolon : Text.isBlank ';' = false := by decide
  induction hGap generalizing gap' with
  | nil =>
      rw [List.nil_append] at h
      cases hGap' with
      | nil => exact ⟨rfl, h⟩
      | blank hBlank _ => simp [Begins, h, hBlank] at hRest
      | comment _ _ _ => simp [Begins, h] at hRest
  | @blank c cs hBlank _ ih =>
      cases hGap' with
      | nil =>
          rw [List.nil_append] at h
          simp [Begins, ← h, hBlank] at hRest'
      | blank _ hLater' =>
          obtain ⟨rfl, hLater⟩ := List.cons.inj h
          obtain ⟨rfl, hSame⟩ := ih hLater' hLater
          exact ⟨rfl, hSame⟩
      | comment _ _ _ =>
          obtain ⟨rfl, _⟩ := List.cons.inj h
          rw [hSemicolon] at hBlank
          cases hBlank
  | @comment body cs hBody hEnd _ ih =>
      cases hGap' with
      | nil =>
          rw [List.nil_append] at h
          simp [Begins, ← h] at hRest'
      | blank hBlank' _ =>
          obtain ⟨rfl, _⟩ := List.cons.inj h
          rw [hSemicolon] at hBlank'
          cases hBlank'
      | @comment body' cs' hBody' hEnd' hLater' =>
          have hLine : body ++ (cs ++ rest) = body' ++ (cs' ++ rest') := by simpa using h
          obtain ⟨rfl, hLater⟩ := append_eq_of_endsLine hBody hBody' hEnd hEnd' hLine
          obtain ⟨rfl, hSame⟩ := ih hLater' hLater
          exact ⟨rfl, hSame⟩

/-- A remainder does not continue a gap. -/
theorem IsUnclosed.begins {cs : List Char} (h : IsUnclosed cs) : Begins cs := by
  rcases h with rfl | ⟨body, rfl, _⟩
  · simp [Begins]
  · simp [Begins, Text.isBlank]

/-- A token does not continue a gap: it begins with a character that no gap begins
with. -/
theorem Token.Stands.begins {front back : List Char} {t : Token} (h : t.Stands front back) :
    Begins (t.text.toList ++ back) := by
  cases t with
  | opening => simp [Begins, Token.text, Text.isBlank]
  | closing => simp [Begins, Token.text, Text.isBlank]
  | string lexeme =>
      obtain ⟨body, rfl, _⟩ := h
      simp [Begins, Token.text, Text.isBlank]
  | word text =>
      obtain ⟨hSome, hWord⟩ : text.toList ≠ [] ∧ ∀ c ∈ text.toList, isWordChar c = true := by
        simpa [isSymbolName] using h.1
      obtain ⟨c, cs, hText⟩ := List.exists_cons_of_ne_nil hSome
      have hc : isWordChar c = true := hWord c (by simp [hText])
      simp only [Begins, Token.text, hText]
      simp_all [isWordChar, isDelimiter]

namespace Decomposition

/-- The tokens of a text are known, since the lexer finds them, and the gaps are
known from the tokens behind them. -/
theorem eq_of_tokens {d d' : Decomposition} {front front' : List Char} (h : d.Fits front)
    (h' : d'.Fits front') (hText : d.text = d'.text) (hTokens : d.tokens = d'.tokens) : d = d' := by
  induction d generalizing d' front front' with
  | ending gap rest =>
      cases d' with
      | ending gap' rest' =>
          obtain ⟨rfl, rfl⟩ := h.1.append_eq h'.1 h.2.begins h'.2.begins hText
          rfl
      | token gap' t' later' => cases hTokens
  | token gap t later ih =>
      cases d' with
      | ending gap' rest' => cases hTokens
      | token gap' t' later' =>
          obtain ⟨hGap, hToken, hLater⟩ := h
          obtain ⟨hGap', hToken', hLater'⟩ := h'
          obtain ⟨rfl, hLaterTokens⟩ := List.cons.inj hTokens
          obtain ⟨rfl, hBack⟩ := hGap.append_eq hGap' hToken.begins hToken'.begins hText
          have hSame : later.text = later'.text := List.append_cancel_left hBack
          rw [ih hLater hLater' hSame hLaterTokens]

theorem IsOf.lex_reports {source : String} {d : Decomposition} (h : d.IsOf source) :
    ∃ position, d.Reports 0 position ∧ PlotLang.lex source =
      (d.tokens, if d.remainder = [] then none else some (.unclosedString position)) := by
  obtain ⟨hText, hFits⟩ := h
  rw [PlotLang.lex, ← hText]
  exact lexFrom_text hFits 0

/-- A decomposition tells what the lexer makes of the text. -/
theorem IsOf.lex {source : String} {d : Decomposition} (h : d.IsOf source) :
    ∃ position, PlotLang.lex source =
      (d.tokens, if d.remainder = [] then none else some (.unclosedString position)) := by
  obtain ⟨position, _, hLex⟩ := h.lex_reports
  exact ⟨position, hLex⟩

end Decomposition

/-- A text has exactly one decomposition into gaps, tokens and a rest. The lexer
finds its tokens, and then ends, or is at fault for the double quote with which
the rest begins. -/
theorem lex_decomposition (source : String) :
    (∃! d : Decomposition, d.IsOf source) ∧
    ∀ d : Decomposition, d.IsOf source →
      (lex source).1 = d.tokens ∧
      (d.remainder = [] → (lex source).2 = none) ∧
      (d.remainder ≠ [] → ∃ position, (lex source).2 = some (.unclosedString position)) := by
  have hStart : Apart [] source.toList := .inl (by simp [Ended])
  obtain ⟨d, hText, hFits⟩ := Decomposition.exists_fits hStart
  refine ⟨⟨d, ⟨hText, hFits⟩, ?_⟩, ?_⟩
  · intro d' hOf
    obtain ⟨position, hLex⟩ := Decomposition.IsOf.lex ⟨hText, hFits⟩
    obtain ⟨position', hLex'⟩ := hOf.lex
    have hTokens : d'.tokens = d.tokens := congrArg Prod.fst (hLex'.symm.trans hLex)
    exact Decomposition.eq_of_tokens hOf.2 hFits (hOf.1.trans hText.symm) hTokens
  · intro d hOf
    obtain ⟨position, hLex⟩ := hOf.lex
    rw [hLex]
    exact ⟨rfl, fun hRest => if_pos hRest, fun hRest => ⟨position, if_neg hRest⟩⟩

/-- A comment that holds a double quote, tokens that touch each other, a string
that holds a semicolon, and a double quote that is never closed. -/
theorem lex_decomposition_unclosed :
    let source := "(f;\"\n\"a;b\"x \"y"
    let d : Decomposition := .token [] .opening (.token [] (.word "f")
      (.token [';', '"', '\n'] (.string "\"a;b\"") (.token [] (.word "x")
        (.ending [' '] ['"', 'y']))))
    d.IsOf source ∧ (lex source).1 = [.opening, .word "f", .string "\"a;b\"", .word "x"] ∧
      ∃ position, (lex source).2 = some (.unclosedString position) := by
  intro source d
  have hGap (rest : List Char) : IsGap rest (';' :: (['"'] ++ ['\n'])) :=
    .comment (by decide) (by simp [EndsLine]) (.blank (by decide) .nil)
  have hString (front back : List Char) : (Token.string "\"a;b\"").Stands front back :=
    ⟨['a', ';', 'b'], rfl, by decide⟩
  have hRest : IsUnclosed ['"', 'y'] := .inr ⟨['y'], rfl, by decide⟩
  have hOf : d.IsOf source := by
    refine ⟨by decide, .nil, trivial, .nil, ⟨by decide, ?_, ?_⟩, hGap _, hString _ _, .nil,
      ⟨by decide, ?_, ?_⟩, .blank (by decide) .nil, hRest⟩
    · simp [Ended, Token.text, isWordChar, isDelimiter]
    · simp [Delimited, Decomposition.text, isWordChar, isDelimiter]
    · simp [Ended, Token.text, isWordChar, isDelimiter]
    · simp [Delimited, Decomposition.text, isWordChar, Text.isBlank]
  obtain ⟨hTokens, _, hFault⟩ := (lex_decomposition source).2 d hOf
  exact ⟨hOf, hTokens, hFault (by simp [d, Decomposition.remainder])⟩

end PlotLang
