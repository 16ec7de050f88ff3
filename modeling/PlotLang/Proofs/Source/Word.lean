import PlotLang.Atom
import PlotLang.Proofs.Source.Numeral

/-! What words and quoted strings denote. A text is read as a number, as a quoted
string and as a symbol, in this order, so each kind of answer says which readings
have failed. Every numeral is a word, so a quoted text is never a number, and the
name of a symbol denotes that symbol unless it is a numeral. -/
namespace PlotLang

/-- The digits of every script are characters of words. -/
theorem isWordChar_of_isDigit {c : Char} (h : Text.isDigit c = true) : isWordChar c = true := by
  obtain ⟨value, hValue⟩ := Option.isSome_iff_exists.mp h
  obtain ⟨z, hFind, _⟩ := Option.map_eq_some_iff.mp hValue
  have hRange : z ≤ c.toNat ∧ c.toNat ≤ z + 9 := by simpa using List.find?_some hFind
  obtain ⟨k, hk⟩ := Nat.exists_eq_add_of_le hRange.1
  have hAll : ∀ z ∈ Text.digitZeros, ∀ k < 10, isWordChar (Char.ofNat (z + k)) = true := by
    decide +kernel
  have hChar := hAll z (List.mem_of_find?_eq_some hFind) k (by omega)
  rwa [← hk, Char.ofNat_toNat] at hChar

namespace Numeral

/-- Digits of all scripts may stand in words. -/
theorem isWord_of_isDigit {ds : List Char} (h : ∀ c ∈ ds, Text.isDigit c = true) :
    ∀ c ∈ ds, isWordChar c = true :=
  fun c hc => isWordChar_of_isDigit (h c hc)

theorem IsSign.isWord {negative : Bool} {sign : List Char} (h : IsSign negative sign) :
    ∀ c ∈ sign, isWordChar c = true := by
  cases h with
  | missing => simp
  | plus | minus => exact List.forall_mem_singleton.mpr (by decide)

/-- Digits and the point do not separate tokens. -/
theorem IsMantissa.isWord {whole fraction mantissa : List Char}
    (h : IsMantissa whole fraction mantissa) : ∀ c ∈ mantissa, isWordChar c = true := by
  have hPoint : isWordChar '.' = true := by decide
  cases h with
  | whole hDigits => exact isWord_of_isDigit hDigits.2
  | point hDigits hLater =>
      exact List.forall_mem_append.mpr ⟨isWord_of_isDigit hDigits.2,
        List.forall_mem_cons.mpr ⟨hPoint, isWord_of_isDigit hLater⟩⟩
  | fraction hDigits => exact List.forall_mem_cons.mpr ⟨hPoint, isWord_of_isDigit hDigits.2⟩

theorem IsPower.isWord {e : Int} {power : List Char} (h : IsPower e power) :
    ∀ c ∈ power, isWordChar c = true := by
  cases h with
  | missing => simp
  | marked hMark hSign hDigits =>
      refine List.forall_mem_cons.mpr
        ⟨?_, List.forall_mem_append.mpr ⟨hSign.isWord, isWord_of_isDigit hDigits.2⟩⟩
      rcases hMark with rfl | rfl <;> decide

/-- A numeral is a single word. -/
theorem WrittenAs.isWord {n : Numeral} {cs : List Char} (h : n.WrittenAs cs) :
    ∀ c ∈ cs, isWordChar c = true := by
  obtain ⟨hSign, hMantissa, hPower⟩ := h
  exact List.forall_mem_append.mpr
    ⟨hSign.isWord, List.forall_mem_append.mpr ⟨hMantissa.isWord, hPower.isWord⟩⟩

end Numeral

/-- A numeral is a word. -/
theorem isSymbolName_of_readNumber? {text : String} {x : Float} (h : readNumber? text = some x) :
    isSymbolName text = true := by
  obtain ⟨n, hNumeral, _⟩ := Option.map_eq_some_iff.mp h
  have hSome : text.toList ≠ [] := by
    intro hEmpty
    rw [hEmpty] at hNumeral
    cases hNumeral
  simpa [isSymbolName, hSome] using (Numeral.ofChars?_eq_some_iff.mp hNumeral).isWord

/-- A name makes the symbol that bears it. -/
theorem Symbol.ofName?_eq_some_iff {text : String} {s : Symbol} :
    ofName? text = some s ↔ s.name = text := by
  constructor
  · intro h
    unfold ofName? at h
    split_ifs at h
    cases h
    rfl
  · rintro rfl
    exact ofName?_name s

theorem Symbol.ofName?_eq_none_iff {text : String} :
    ofName? text = none ↔ isSymbolName text = false := by
  simp [ofName?]

namespace Atom
variable {text : String}

/-- The three readings are tried one after the other. -/
theorem ofWord?_cases (text : String) :
    (∃ x, readNumber? text = some x ∧ ofWord? text = some (.number x)) ∨
      (readNumber? text = .none ∧ ∃ body, unquote? text.toList = some body ∧
        ofWord? text = some (.string (String.ofList body))) ∨
      (readNumber? text = .none ∧ unquote? text.toList = .none ∧
        ofWord? text = (Symbol.ofName? text).map symbol) := by
  cases hNumber : readNumber? text with
  | some x => exact .inl ⟨x, rfl, by simp [ofWord?, hNumber]⟩
  | none =>
      cases hBody : unquote? text.toList with
      | some body => exact .inr (.inl ⟨rfl, body, rfl, by simp [ofWord?, hNumber, hBody]⟩)
      | none => exact .inr (.inr ⟨rfl, rfl, by simp [ofWord?, hNumber, hBody]⟩)

/-- A word is a number if it can be one. -/
theorem ofWord?_eq_number_iff {x : Float} :
    ofWord? text = some (.number x) ↔ readNumber? text = some x := by
  obtain ⟨y, h, hWord⟩ | ⟨h, _, _, hWord⟩ | ⟨h, _, hWord⟩ := ofWord?_cases text <;> simp [h, hWord]

/-- Quotes make a string of what is no number. -/
theorem ofWord?_eq_string_iff {body : String} :
    ofWord? text = some (.string body) ↔
      readNumber? text = .none ∧ unquote? text.toList = some body.toList := by
  obtain ⟨y, h, hWord⟩ | ⟨h, cs, hBody, hWord⟩ | ⟨h, hBody, hWord⟩ := ofWord?_cases text
  · simp [h, hWord]
  · simp [h, hBody, hWord, ← String.toList_inj]
  · simp [h, hBody, hWord]

/-- What is neither a number nor a string is a symbol, if it can be the name of one. -/
theorem ofWord?_eq_symbol_iff {s : Symbol} :
    ofWord? text = some (.symbol s) ↔
      readNumber? text = .none ∧ unquote? text.toList = .none ∧ s.name = text := by
  obtain ⟨y, h, hWord⟩ | ⟨h, cs, hBody, hWord⟩ | ⟨h, hBody, hWord⟩ := ofWord?_cases text
  · simp [h, hWord]
  · simp [hBody, hWord]
  · simp [h, hBody, hWord, Symbol.ofName?_eq_some_iff]

/-- What denotes nothing is none of the three. -/
theorem ofWord?_eq_none_iff :
    ofWord? text = .none ↔
      readNumber? text = .none ∧ unquote? text.toList = .none ∧ isSymbolName text = false := by
  obtain ⟨y, h, hWord⟩ | ⟨h, cs, hBody, hWord⟩ | ⟨h, hBody, hWord⟩ := ofWord?_cases text
  · simp [h, hWord]
  · simp [hBody, hWord]
  · simp [h, hBody, hWord, Symbol.ofName?_eq_none_iff]

/-- Numbers, strings and symbols are all that a text can denote. -/
theorem kind_of_ofWord? {a : Atom} (h : ofWord? text = some a) :
    (∃ x, a = .number x) ∨ (∃ body, a = .string body) ∨
      ∃ s : Symbol, s.name = text ∧ a = .symbol s := by
  obtain ⟨x, _, hWord⟩ | ⟨_, body, _, hWord⟩ | ⟨_, _, hWord⟩ := ofWord?_cases text
  · exact .inl ⟨x, Option.some.inj (h.symm.trans hWord)⟩
  · exact .inr (.inl ⟨_, Option.some.inj (h.symm.trans hWord)⟩)
  · obtain ⟨s, hName, rfl⟩ := Option.map_eq_some_iff.mp (hWord.symm.trans h)
    exact .inr (.inr ⟨s, Symbol.ofName?_eq_some_iff.mp hName, rfl⟩)

theorem unquote?_quoted (body : List Char) : unquote? ('"' :: (body ++ ['"'])) = some body := by
  cases body with
  | nil => rfl
  | cons c body =>
      have hLast : ((c :: body) ++ ['"']).getLast? = some '"' := List.getLast?_concat
      have hInit : ((c :: body) ++ ['"']).dropLast = c :: body := List.dropLast_concat
      rw [List.cons_append] at hLast hInit
      simp [unquote?, hLast, hInit]

/-- A name has no quotes that could be taken off. -/
theorem unquote?_word (h : isSymbolName text = true) : unquote? text.toList = .none := by
  unfold unquote?
  split
  · next hText => simp [isSymbolName, hText, isWordChar, isDelimiter] at h
  · rfl

/-- No word is quoted. -/
theorem ofWord?_ne_string (h : isSymbolName text = true) (body : String) :
    ofWord? text ≠ some (.string body) := by
  intro hString
  obtain ⟨_, hBody⟩ := ofWord?_eq_string_iff.mp hString
  rw [unquote?_word h] at hBody
  cases hBody

/-- Only a text that is neither quoted nor the name of a symbol may denote nothing. -/
theorem exists_ofWord? (h : isSymbolName text = true ∨ ∃ body, unquote? text.toList = some body) :
    ∃ a, ofWord? text = some a := by
  rw [← Option.ne_none_iff_exists']
  intro hNothing
  obtain ⟨_, hBody, hName⟩ := ofWord?_eq_none_iff.mp hNothing
  simp [hBody, hName] at h

/-- A quoted text denotes the string, since no numeral begins with a quote. -/
theorem ofWord?_quoted (body : List Char) :
    ofWord? (String.ofList ('"' :: (body ++ ['"']))) = some (.string (String.ofList body)) := by
  refine ofWord?_eq_string_iff.mpr ⟨?_, by simp [unquote?_quoted]⟩
  rw [Option.eq_none_iff_forall_ne_some]
  intro x hNumber
  have hName := isSymbolName_of_readNumber? hNumber
  simp [isSymbolName, isWordChar, isDelimiter] at hName

/-- A name that is no numeral denotes its symbol. -/
theorem ofWord?_name {s : Symbol} (h : readNumber? s.name = .none) :
    ofWord? s.name = some (.symbol s) :=
  ofWord?_eq_symbol_iff.mpr ⟨h, unquote?_word s.valid, rfl⟩

end Atom
end PlotLang
