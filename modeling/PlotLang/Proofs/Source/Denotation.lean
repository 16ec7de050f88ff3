import PlotLang.Proofs.Source.Lexer
import PlotLang.Proofs.Source.Word

/-! Which texts denote what. A text denotes a number exactly if it is a numeral.
Of the other texts, those between double quotes denote strings, those that hold
neither a blank nor a delimiter denote symbols, and the rest denotes nothing. The
lexer finds no word and no string of the last kind. -/
namespace PlotLang

def IsNumeral (text : String) : Prop := ∃ n : Numeral, n.WrittenAs text.toList

def IsQuoted (text : String) : Prop := ∃ body, text = "\"" ++ body ++ "\""

def Separates (c : Char) : Prop := Text.isBlank c = true ∨ c ∈ ['(', ')', '"', ';']

/-- A text is read as a number exactly if it is written as a numeral, and then as
that one. -/
theorem readNumber?_eq_some_iff {text : String} {x : Float} :
    readNumber? text = some x ↔ ∃ n : Numeral, n.WrittenAs text.toList ∧ n.toFloat = x := by
  simp only [readNumber?, Option.map_eq_some_iff, Numeral.ofChars?_eq_some_iff]

theorem readNumber?_eq_none_iff {text : String} : readNumber? text = none ↔ ¬IsNumeral text := by
  simp only [Option.eq_none_iff_forall_ne_some, ne_eq, readNumber?_eq_some_iff, IsNumeral]
  constructor
  · rintro h ⟨n, hWritten⟩
    exact h n.toFloat ⟨n, hWritten, rfl⟩
  · rintro h x ⟨n, hWritten, _⟩
    exact h ⟨n, hWritten⟩

/-- The characters of words are those that do not separate tokens. -/
theorem isWordChar_iff {c : Char} : isWordChar c = true ↔ ¬Separates c := by
  simp [isWordChar, isDelimiter, Separates, and_assoc]

/-- A name of a symbol is not empty and has no separating character. -/
theorem isSymbolName_iff {text : String} :
    isSymbolName text = true ↔ text ≠ "" ∧ ∀ c ∈ text.toList, ¬Separates c := by
  simp [isSymbolName, isWordChar_iff]

namespace Atom
variable {text : String}

/-- Quotes are taken off a text that has one at each end, if these are two. -/
theorem unquote?_eq_some_iff {body : List Char} :
    unquote? text.toList = some body ↔ text = "\"" ++ String.ofList body ++ "\"" := by
  have hText : text = "\"" ++ String.ofList body ++ "\"" ↔ text.toList = '"' :: (body ++ ['"']) := by
    rw [← String.toList_inj]
    simp
  rw [hText]
  constructor
  · intro h
    unfold unquote? at h
    split at h
    · next c rest hQuoted =>
        split_ifs at h with hLast
        cases h
        obtain ⟨body, hBody⟩ := List.getLast?_eq_some_iff.mp (by simpa using hLast)
        rw [hQuoted, hBody, List.dropLast_concat]
    · cases h
  · intro h
    rw [h, unquote?_quoted]

theorem unquote?_eq_none_iff : unquote? text.toList = .none ↔ ¬IsQuoted text := by
  simp only [Option.eq_none_iff_forall_ne_some, ne_eq, unquote?_eq_some_iff, IsQuoted, not_exists]
  constructor
  · intro h body
    simpa using h body.toList
  · intro h body
    exact h (String.ofList body)

/-- Only what is neither a numeral nor quoted is a symbol or denotes nothing. -/
theorem exists_symbol_iff :
    (∃ s : Symbol, s.name = text ∧ ofWord? text = some (.symbol s)) ↔
      ¬IsNumeral text ∧ ¬IsQuoted text ∧ text ≠ "" ∧ ∀ c ∈ text.toList, ¬Separates c := by
  rw [← readNumber?_eq_none_iff, ← unquote?_eq_none_iff, ← isSymbolName_iff]
  constructor
  · rintro ⟨s, rfl, h⟩
    obtain ⟨hNumber, hBody, _⟩ := ofWord?_eq_symbol_iff.mp h
    exact ⟨hNumber, hBody, s.valid⟩
  · rintro ⟨hNumber, hBody, hName⟩
    exact ⟨⟨text, hName⟩, rfl, ofWord?_eq_symbol_iff.mpr ⟨hNumber, hBody, rfl⟩⟩

/-- A text that denotes nothing is no token: it is empty, or characters in it
would end it. -/
theorem nothing_iff :
    ofWord? text = .none ↔
      ¬IsNumeral text ∧ ¬IsQuoted text ∧ (text = "" ∨ ∃ c ∈ text.toList, Separates c) := by
  have hName : isSymbolName text = false ↔ text = "" ∨ ∃ c ∈ text.toList, Separates c := by
    rw [← Bool.not_eq_true, isSymbolName_iff, Decidable.not_and_iff_not_or_not]
    simp
  rw [ofWord?_eq_none_iff, readNumber?_eq_none_iff, unquote?_eq_none_iff, hName]

/-- A word is a number or a symbol. -/
theorem ofWord?_of_isLexed_word (h : (Token.word text).IsLexed) :
    ∃ a, ofWord? text = some a ∧ ∀ body, a ≠ .string body := by
  obtain ⟨a, ha⟩ := exists_ofWord? (.inl h)
  refine ⟨a, ha, ?_⟩
  rintro body rfl
  exact ofWord?_ne_string h body ha

/-- A string token denotes the text between its quotes, and never a number. -/
theorem ofWord?_of_isLexed_string {lexeme : String} (h : (Token.string lexeme).IsLexed) :
    ∃ body, lexeme = "\"" ++ body ++ "\"" ∧ ofWord? lexeme = some (.string body) := by
  obtain ⟨body, rfl, _⟩ := h
  refine ⟨String.ofList body, ?_, ofWord?_quoted body⟩
  rw [← String.toList_inj]
  simp

end Atom

/-- A text denotes a number exactly if it is a numeral, and then the number
that is written. Otherwise it denotes a string exactly if it stands between double
quotes, and the symbol of its name exactly if it is a word; it denotes nothing
exactly if it is neither of these and is empty or holds a blank or a delimiter.
So all words and strings that the lexer finds denote something, every string a
string and no word one. -/
theorem denotation_exact :
    (∀ text,
      (∀ x, Atom.ofWord? text = some (.number x) ↔
        ∃ n : Numeral, n.WrittenAs text.toList ∧ n.toFloat = x) ∧
      (∀ body, Atom.ofWord? text = some (.string body) ↔
        ¬IsNumeral text ∧ text = "\"" ++ body ++ "\"") ∧
      ((∃ s : Symbol, s.name = text ∧ Atom.ofWord? text = some (.symbol s)) ↔
        ¬IsNumeral text ∧ ¬IsQuoted text ∧ text ≠ "" ∧ ∀ c ∈ text.toList, ¬Separates c) ∧
      (Atom.ofWord? text = none ↔
        ¬IsNumeral text ∧ ¬IsQuoted text ∧ (text = "" ∨ ∃ c ∈ text.toList, Separates c)) ∧
      ∀ a, Atom.ofWord? text = some a →
        (∃ x, a = .number x) ∨ (∃ body, a = .string body) ∨
          ∃ s : Symbol, s.name = text ∧ a = .symbol s) ∧
    ∀ source,
      (∀ text, .word text ∈ (lex source).1 →
        ∃ a, Atom.ofWord? text = some a ∧ ∀ body, a ≠ .string body) ∧
      ∀ lexeme, .string lexeme ∈ (lex source).1 →
        ∃ body, lexeme = "\"" ++ body ++ "\"" ∧ Atom.ofWord? lexeme = some (.string body) := by
  refine ⟨fun text => ⟨fun x => ?_, fun body => ?_, Atom.exists_symbol_iff, Atom.nothing_iff,
    fun _ => Atom.kind_of_ofWord?⟩, fun source => ⟨fun text h => ?_, fun lexeme h => ?_⟩⟩
  · rw [Atom.ofWord?_eq_number_iff, readNumber?_eq_some_iff]
  · rw [Atom.ofWord?_eq_string_iff, readNumber?_eq_none_iff, Atom.unquote?_eq_some_iff,
      String.ofList_toList]
  · exact Atom.ofWord?_of_isLexed_word (lex_isLexed source _ h)
  · exact Atom.ofWord?_of_isLexed_string (lex_isLexed source _ h)

/-- A numeral that begins with a point, a near miss whose power of ten has no
digits, and a string that holds a blank and a delimiter. -/
theorem denotation_exact_near_miss :
    let source := "(f -.5e+7 1.e \"a ;b\")"
    (lex source).1 = [.opening, .word "f", .word "-.5e+7", .word "1.e", .string "\"a ;b\"",
      .closing] ∧
    Atom.ofWord? "-.5e+7" = some (.number (Numeral.toFloat ⟨true, 5, 6⟩)) ∧
    (∃ s : Symbol, s.name = "1.e" ∧ Atom.ofWord? "1.e" = some (.symbol s)) ∧
    ∃ body, "\"a ;b\"" = "\"" ++ body ++ "\"" ∧
      Atom.ofWord? "\"a ;b\"" = some (.string body) := by
  intro source
  have hLex : (lex source).1 = [.opening, .word "f", .word "-.5e+7", .word "1.e",
      .string "\"a ;b\"", .closing] := by decide +kernel
  have hFive : Numeral.IsDigits ['5'] := ⟨by simp, List.forall_mem_singleton.mpr (by decide)⟩
  have hSeven : Numeral.IsDigits ['7'] := ⟨by simp, List.forall_mem_singleton.mpr (by decide)⟩
  have hMantissa : Numeral.IsMantissa [] ['5'] ['.', '5'] := .fraction hFive
  have hPower : Numeral.IsPower 7 ['e', '+', '7'] := .marked (.inl rfl) .plus hSeven
  have hWritten : (⟨true, 5, 6⟩ : Numeral).WrittenAs "-.5e+7".toList :=
    .parts .minus hMantissa hPower
  have hOther : ¬IsNumeral "1.e" := readNumber?_eq_none_iff.mp (by decide)
  have hBare : ¬IsQuoted "1.e" := Atom.unquote?_eq_none_iff.mp (by decide)
  have hName := isSymbolName_iff.mp (by decide : isSymbolName "1.e" = true)
  refine ⟨hLex, ?_, ?_, ?_⟩
  · exact ((denotation_exact.1 "-.5e+7").1 _).mpr ⟨_, hWritten, rfl⟩
  · exact (denotation_exact.1 "1.e").2.2.1.mpr ⟨hOther, hBare, hName⟩
  · exact (denotation_exact.2 source).2 _ (by simp [hLex])

end PlotLang
