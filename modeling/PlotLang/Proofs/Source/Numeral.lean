import Mathlib.Tactic.SplitIfs
import PlotLang.Numeral

/-! How a numeral is written. The parts of a numeral are described one by one,
without the reader of numerals: a sign, digits that may hold a point, and a power
of ten. The reader accepts exactly these texts, and finds the parts. -/
namespace PlotLang
namespace Numeral

/-- A sign, which may be missing: whether it is a minus, and its text. -/
inductive IsSign : Bool → List Char → Prop where
  | missing : IsSign false []
  | plus : IsSign false ['+']
  | minus : IsSign true ['-']

/-- At least one digit, and nothing else. -/
def IsDigits (ds : List Char) : Prop := ds ≠ [] ∧ ∀ c ∈ ds, Text.isDigit c = true

/-- Digits that may hold one point: those in front of it, those behind it, and
the text of all. -/
inductive IsMantissa : List Char → List Char → List Char → Prop where
  | whole {ds : List Char} (hDigits : IsDigits ds) : IsMantissa ds [] ds
  | point {ds fs : List Char} (hDigits : IsDigits ds) (hLater : ∀ c ∈ fs, Text.isDigit c = true) :
      IsMantissa ds fs (ds ++ '.' :: fs)
  | fraction {fs : List Char} (hDigits : IsDigits fs) : IsMantissa [] fs ('.' :: fs)

/-- A power of ten, which may be missing: the exponent and its text. -/
inductive IsPower : Int → List Char → Prop where
  | missing : IsPower 0 []
  | marked {mark : Char} {negative : Bool} {sign ds : List Char} (hMark : mark = 'e' ∨ mark = 'E')
      (hSign : IsSign negative sign) (hDigits : IsDigits ds) :
      IsPower (if negative then -(Text.digitsValue ds : Int) else Text.digitsValue ds)
        (mark :: (sign ++ ds))

/-- The parts of a numeral one after the other, with nothing left over. Digits
behind the point count as digits in front of it, for a power of ten less each. -/
inductive WrittenAs : Numeral → List Char → Prop where
  | parts {negative : Bool} {exponent : Int} {sign whole fraction mantissa power : List Char}
      (hSign : IsSign negative sign) (hMantissa : IsMantissa whole fraction mantissa)
      (hPower : IsPower exponent power) :
      WrittenAs ⟨negative, Text.digitsValue (whole ++ fraction), exponent - fraction.length⟩
        (sign ++ (mantissa ++ power))

/-- Digits are read as a number only if there is one and nothing else stands
between them. -/
theorem digits?_eq_some_iff {ds : List Char} {n : Nat} :
    digits? ds = some n ↔ IsDigits ds ∧ Text.digitsValue ds = n := by
  simp [digits?, IsDigits]

/-- The text goes on with something else than a sign. -/
def Unsigned (cs : List Char) : Prop := ∀ c ∈ cs.head?, c ≠ '+' ∧ c ≠ '-'

/-- Digits do not begin with a sign. -/
theorem IsDigits.unsigned {ds : List Char} (h : IsDigits ds) (rest : List Char) :
    Unsigned (ds ++ rest) := by
  obtain ⟨c, ds, rfl⟩ := List.exists_cons_of_ne_nil h.1
  have hDigit : Text.isDigit c = true := h.2 c List.mem_cons_self
  intro c' hFirst
  cases hFirst
  constructor
  · rintro rfl
    cases hDigit
  · rintro rfl
    cases hDigit

theorem IsMantissa.unsigned {whole fraction mantissa : List Char}
    (h : IsMantissa whole fraction mantissa) (rest : List Char) : Unsigned (mantissa ++ rest) := by
  cases h with
  | whole hDigits => exact hDigits.unsigned rest
  | point hDigits _ =>
      rw [List.append_assoc]
      exact hDigits.unsigned _
  | fraction _ => simp [Unsigned]

/-- A sign is taken off what has none of its own. -/
theorem IsSign.splitSign_append {negative : Bool} {sign rest : List Char}
    (h : IsSign negative sign) (hRest : Unsigned rest) :
    splitSign (sign ++ rest) = (negative, rest) := by
  cases h with
  | missing =>
      -- Only a missing sign could be mistaken for one that the rest begins with.
      rw [List.nil_append]
      unfold splitSign
      split
      · exact absurd rfl (hRest '-' rfl).2
      · exact absurd rfl (hRest '+' rfl).1
      · rfl
  | plus => rfl
  | minus => rfl

/-- What is taken off the front was a sign or nothing. -/
theorem exists_sign {cs rest : List Char} {negative : Bool} (h : splitSign cs = (negative, rest)) :
    ∃ sign, IsSign negative sign ∧ cs = sign ++ rest := by
  unfold splitSign at h
  split at h
  · cases h
    exact ⟨_, .minus, rfl⟩
  · cases h
    exact ⟨_, .plus, rfl⟩
  · cases h
    exact ⟨_, .missing, rfl⟩

/-- The mark of an exponent is followed by a sign and digits. -/
theorem exponent?_cons {c : Char} {cs ds : List Char} {negative : Bool} (hMark : c = 'e' ∨ c = 'E')
    (hSign : splitSign cs = (negative, ds)) :
    exponent? (c :: cs) =
      (digits? ds).map fun n : Nat => if negative then -(n : Int) else n := by
  rw [exponent?, if_pos (by simpa using hMark), hSign]
  dsimp only
  cases digits? ds <;> rfl

/-- An exponent is read exactly if it is written as one; where nothing is left it
is zero. -/
theorem exponent?_eq_some_iff {cs : List Char} {e : Int} :
    exponent? cs = some e ↔ IsPower e cs := by
  constructor
  · intro h
    cases cs with
    | nil =>
        cases h
        exact .missing
    | cons c cs =>
        by_cases hMark : c = 'e' ∨ c = 'E'
        · cases hSplit : splitSign cs with
          | mk negative ds =>
              rw [exponent?_cons hMark hSplit] at h
              obtain ⟨n, hValue, rfl⟩ := Option.map_eq_some_iff.mp h
              obtain ⟨hDigits, rfl⟩ := digits?_eq_some_iff.mp hValue
              obtain ⟨sign, hSign, rfl⟩ := exists_sign hSplit
              exact .marked hMark hSign hDigits
        · rw [exponent?, if_neg (by simpa using hMark)] at h
          cases h
  · intro h
    cases h with
    | missing => rfl
    | @marked mark negative sign ds hMark hSign hDigits =>
        have hSplit : splitSign (sign ++ ds) = (negative, ds) := by
          simpa using hSign.splitSign_append (hDigits.unsigned [])
        have hValue : digits? ds = some (Text.digitsValue ds) :=
          digits?_eq_some_iff.mpr ⟨hDigits, rfl⟩
        rw [exponent?_cons hMark hSplit, hValue]
        rfl

/-- Digits are taken off a text up to the first character that is none. -/
theorem span_digits {ds rest : List Char} (hDigits : ∀ c ∈ ds, Text.isDigit c = true)
    (hRest : ∀ c ∈ rest.head?, Text.isDigit c = false) :
    (ds ++ rest).takeWhile Text.isDigit = ds ∧ (ds ++ rest).dropWhile Text.isDigit = rest := by
  rw [List.takeWhile_append_of_pos hDigits, List.dropWhile_append_of_pos hDigits]
  cases rest with
  | nil => simp
  | cons c rest => simp [hRest c rfl]

/-- Behind the digits of a numeral there is neither a digit nor a point. -/
theorem IsPower.head {e : Int} {cs : List Char} (h : IsPower e cs) :
    ∀ c ∈ cs.head?, Text.isDigit c = false ∧ c ≠ '.' := by
  cases h with
  | missing => simp
  | marked hMark _ _ =>
      intro c hc
      cases hc
      rcases hMark with rfl | rfl <;> decide

/-- Without a point there is no fraction. -/
theorem splitFraction_of_head {cs : List Char} (h : ∀ c ∈ cs.head?, c ≠ '.') :
    splitFraction cs = ([], cs) := by
  unfold splitFraction
  split
  · exact absurd rfl (h '.' rfl)
  · rfl

/-- The digits on both sides of the point are found, with the text behind them. -/
theorem IsMantissa.split {whole fraction mantissa rest : List Char}
    (h : IsMantissa whole fraction mantissa)
    (hRest : ∀ c ∈ rest.head?, Text.isDigit c = false ∧ c ≠ '.') :
    (mantissa ++ rest).takeWhile Text.isDigit = whole ∧
      splitFraction ((mantissa ++ rest).dropWhile Text.isDigit) = (fraction, rest) := by
  have hEnd : ∀ c ∈ rest.head?, Text.isDigit c = false := fun c hc => (hRest c hc).1
  have hPoint : Text.isDigit '.' = false := by decide
  cases h with
  | whole hDigits =>
      obtain ⟨hTake, hDrop⟩ := span_digits hDigits.2 hEnd
      rw [hTake, hDrop]
      exact ⟨rfl, splitFraction_of_head fun c hc => (hRest c hc).2⟩
  | point hDigits hLater =>
      have hStop : ∀ c ∈ ('.' :: (fraction ++ rest)).head?, Text.isDigit c = false := by
        simpa using hPoint
      obtain ⟨hTake, hDrop⟩ := span_digits hDigits.2 hStop
      obtain ⟨hTake', hDrop'⟩ := span_digits hLater hEnd
      rw [List.append_assoc, List.cons_append, hTake, hDrop, splitFraction, hTake', hDrop']
      exact ⟨rfl, rfl⟩
  | fraction hDigits =>
      obtain ⟨hTake, hDrop⟩ := span_digits hDigits.2 hEnd
      rw [List.cons_append, List.takeWhile_cons_of_neg (by simp [hPoint]),
        List.dropWhile_cons_of_neg (by simp [hPoint]), splitFraction, hTake, hDrop]
      exact ⟨rfl, rfl⟩

theorem isDigit_of_mem_takeWhile (cs : List Char) :
    ∀ c ∈ cs.takeWhile Text.isDigit, Text.isDigit c = true :=
  List.all_eq_true.mp List.all_takeWhile

/-- Digits on one side of a point at least make up a mantissa. -/
theorem exists_mantissa {cs whole fraction rest : List Char}
    (hWhole : cs.takeWhile Text.isDigit = whole)
    (hSplit : splitFraction (cs.dropWhile Text.isDigit) = (fraction, rest))
    (hSome : whole ≠ [] ∨ fraction ≠ []) :
    ∃ mantissa, IsMantissa whole fraction mantissa ∧ cs = mantissa ++ rest := by
  have hText : cs = whole ++ cs.dropWhile Text.isDigit := by
    rw [← hWhole, List.takeWhile_append_dropWhile]
  have hDigits : ∀ c ∈ whole, Text.isDigit c = true := hWhole ▸ isDigit_of_mem_takeWhile cs
  unfold splitFraction at hSplit
  split at hSplit
  · next later hDrop =>
      cases hSplit
      have hLater := isDigit_of_mem_takeWhile later
      rw [hDrop] at hText
      -- Without digits in front of the point there are some behind it.
      by_cases hNone : whole = []
      · subst hNone
        refine ⟨_, .fraction ⟨hSome.resolve_left (· rfl), hLater⟩, ?_⟩
        rw [List.cons_append, List.takeWhile_append_dropWhile]
        exact hText
      · refine ⟨_, .point ⟨hNone, hDigits⟩ hLater, ?_⟩
        rw [List.append_assoc, List.cons_append, List.takeWhile_append_dropWhile]
        exact hText
  · cases hSplit
    exact ⟨whole, .whole ⟨hSome.resolve_right (· rfl), hDigits⟩, hText⟩

/-- What is read after the sign and the digits have been found. -/
theorem ofChars?_of_split {cs unsigned whole fraction rest : List Char} {negative : Bool}
    (hSign : splitSign cs = (negative, unsigned))
    (hWhole : unsigned.takeWhile Text.isDigit = whole)
    (hFraction : splitFraction (unsigned.dropWhile Text.isDigit) = (fraction, rest)) :
    ofChars? cs =
      if whole = [] ∧ fraction = [] then none
      else (exponent? rest).map fun e =>
        ⟨negative, Text.digitsValue (whole ++ fraction), e - fraction.length⟩ := by
  simp only [ofChars?, hSign, hWhole, hFraction, Bool.and_eq_true, List.isEmpty_iff]

/-- The reader of numerals accepts exactly what can be written, and finds the
parts. So no text is written in two ways. -/
theorem ofChars?_eq_some_iff {cs : List Char} {n : Numeral} :
    ofChars? cs = some n ↔ n.WrittenAs cs := by
  constructor
  · intro h
    cases hSplit : splitSign cs with
    | mk negative unsigned =>
        cases hFraction : splitFraction (unsigned.dropWhile Text.isDigit) with
        | mk fraction rest =>
            rw [ofChars?_of_split hSplit rfl hFraction] at h
            split_ifs at h with hNone
            obtain ⟨e, hPower, rfl⟩ := Option.map_eq_some_iff.mp h
            obtain ⟨sign, hSign, rfl⟩ := exists_sign hSplit
            obtain ⟨mantissa, hMantissa, hText⟩ :=
              exists_mantissa rfl hFraction (Decidable.not_and_iff_not_or_not.mp hNone)
            have hWritten := WrittenAs.parts hSign hMantissa (exponent?_eq_some_iff.mp hPower)
            rwa [← hText] at hWritten
  · intro h
    cases h with
    | @parts negative exponent sign whole fraction mantissa power hSign hMantissa hPower =>
        have hSplit := hSign.splitSign_append (hMantissa.unsigned power)
        obtain ⟨hWhole, hFraction⟩ := hMantissa.split hPower.head
        have hSome : ¬(whole = [] ∧ fraction = []) := by
          rintro ⟨rfl, rfl⟩
          cases hMantissa with
          | whole hDigits | point hDigits _ | fraction hDigits => exact hDigits.1 rfl
        rw [ofChars?_of_split hSplit hWhole hFraction, if_neg hSome,
          exponent?_eq_some_iff.mpr hPower]
        rfl

end Numeral

end PlotLang
