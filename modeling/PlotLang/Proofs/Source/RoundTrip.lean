import PlotLang.Expr.Display
import PlotLang.Proofs.Source.Recognition

/-! Reading undoes printing. An expression whose heads are symbols, strings and
numbers is written as the text of a derivation, and its tree is the expression.
A word is followed by a blank or a parenthesis, so it ends where it should. -/
namespace PlotLang

/-- Nothing is lost when the atom is written. A symbol must not look like a
numeral, a string has no way to hold a double quote, and six digits must be
enough for a number. -/
def Atom.IsPrintable : Atom → Prop
  | .symbol s => readNumber? s.name = Option.none
  | .string text => '"' ∉ text.toList
  | .number x => Atom.ofWord? (Atom.numberText x) = some (.number x)
  | _ => False

instance : (a : Atom) → Decidable a.IsPrintable
  | .symbol s => inferInstanceAs (Decidable (readNumber? s.name = none))
  | .string text => inferInstanceAs (Decidable ('"' ∉ text.toList))
  | .number x => inferInstanceAs (Decidable (Atom.ofWord? (Atom.numberText x) = some (.number x)))
  | .none | .complex _ | .procedure _ | .list | .lambda _ | .discrete _ =>
    inferInstanceAs (Decidable False)

/-- An expression without properties, all of whose heads are printable. -/
inductive Expr.IsPrintable : Expr → Prop where
  | node {a : Atom} {es : List Expr} (hHead : a.IsPrintable)
      (hChildren : ∀ e ∈ es, IsPrintable e) : IsPrintable (Expr.node a es)

theorem Expr.IsPrintable.leaf {a : Atom} (h : a.IsPrintable) : (Expr.leaf a).IsPrintable :=
  .node h (List.forall_mem_nil _)

/-- The characters are read as a derivation of the expression. -/
def Expr.Spelled (e : Expr) (cs : List Char) : Prop :=
  ∃ δ : Derivation, Spells cs δ.tokens ∧ δ.expr? = some e

/-- The characters are read as a word or a string that denotes the atom. -/
def Atom.Spelled (a : Atom) (cs : List Char) : Prop :=
  ∃ l : Lexeme, Spells cs [l.token] ∧ l.atom? = some a

/-- An atom that can be printed is written as the token that denotes it. -/
theorem Atom.IsPrintable.spelled {a : Atom} (h : a.IsPrintable) : a.Spelled a.text.toList := by
  cases a with
  | symbol s => exact ⟨.word s.name, .word s.valid, Atom.ofWord?_name h⟩
  | string text =>
      have hText : (Atom.string text).text.toList = '"' :: (text.toList ++ ['"']) := by
        simp [Atom.text]
      have hDenotes := Atom.ofWord?_quoted text.toList
      rw [String.ofList_toList] at hDenotes
      exact ⟨.string (String.ofList ('"' :: (text.toList ++ ['"']))), hText ▸ .string h, hDenotes⟩
  | number x =>
      have hName := isSymbolName_of_readNumber? (Atom.ofWord?_eq_number_iff.mp h)
      exact ⟨.word (Atom.numberText x), .word hName, h⟩
  | none | complex z | procedure b | list | lambda c | discrete name => exact h.elim

namespace Expr

theorem toList_intercalate_cons {sep : String} {c : Char} (hSep : sep.toList = [c])
    (text : String) (texts : List String) :
    (sep.intercalate (text :: texts)).toList =
      text.toList ++ texts.flatMap fun text => c :: text.toList := by
  induction texts generalizing text with
  | nil => simp
  | cons text' texts ih =>
      rw [String.intercalate_cons_cons, String.toList_append, String.toList_append, ih, hSep]
      simp

/-- Expressions that are each written after a blank are read one after the other. -/
theorem spells_flatMap {es : List Expr} {text : Expr → String} {c : Char}
    (hBlank : Text.isBlank c = true) (h : ∀ e ∈ es, e.Spelled (text e).toList) :
    Delimited (es.flatMap fun e => c :: (text e).toList) ∧
      ∃ δs, Spells (es.flatMap fun e => c :: (text e).toList) (Derivation.tokensAll δs) ∧
        Derivation.exprs? δs = some es := by
  induction es with
  | nil => exact ⟨by simp [Delimited], [], .nil, rfl⟩
  | cons e es ih =>
      obtain ⟨⟨δ, hSpells, he⟩, hRest⟩ := List.forall_mem_cons.mp h
      obtain ⟨hDelimited, δs, hLater, hes⟩ := ih hRest
      refine ⟨by simp [Delimited, isWordChar, hBlank], δ :: δs, ?_, ?_⟩
      · exact (hSpells.blank hBlank).append hLater hDelimited
      · exact Derivation.exprs?_cons.mpr ⟨e, es, he, hes, rfl⟩

/-- A printable atom is written as its text, and at the top between parentheses. -/
theorem words_of_isPrintable {a : Atom} (h : a.IsPrintable) :
    isWord a = true ∧ headWords a = [a.text] ∧ wordText true a = a.text ∧
      wordText false a = "(" ++ a.text ++ ")" := by
  cases a with
  | symbol s | string text | number x => simp [isWord, headWords, wordText]
  | none | complex z | procedure b | list | lambda c | discrete name => exact h.elim

/-- Within a list an atom is written as it is. -/
theorem write_leaf {a : Atom} (ha : a.IsPrintable) : write true (leaf a) = a.text := by
  obtain ⟨hWord, _, hNested, _⟩ := words_of_isPrintable ha
  simp [leaf, write, hWord, hNested]

/-- At the top, with children or without, the head and the children stand
between parentheses. -/
theorem toList_display {a : Atom} (ha : a.IsPrintable) (es : List Expr) :
    (display (node a es)).toList =
      '(' :: (a.text.toList ++ ((es.flatMap fun e => ' ' :: (write true e).toList) ++ [')'])) := by
  obtain ⟨hWord, hHead, _, hTop⟩ := words_of_isPrintable ha
  have hDisplay : display (node a es) =
      "(" ++ " ".intercalate (a.text :: es.map (write true)) ++ ")" := by
    cases es with
    | nil => simp [display, node, write, hWord, hTop]
    | cons e es => simp [display, node, write, writeAll_eq_map, hHead]
  rw [hDisplay, String.toList_append, String.toList_append,
    toList_intercalate_cons (c := ' ') (by simp), List.flatMap_map]
  simp

/-- Within a list a form with children is written as it is alone. -/
theorem write_node_cons (a : Atom) (e : Expr) (es : List Expr) :
    write true (node a (e :: es)) = display (node a (e :: es)) := by
  simp [node, display, write]

/-- A form is written as its head and its children with blanks between, in
parentheses. -/
theorem spelled_display {a : Atom} (ha : a.IsPrintable) {es : List Expr}
    (hes : ∀ e ∈ es, e.Spelled (write true e).toList) :
    (ofListForm a es).Spelled (display (node a es)).toList := by
  obtain ⟨l, hHead, hAtom⟩ := ha.spelled
  obtain ⟨hDelimited, δs, hChildren, hExprs⟩ := spells_flatMap (c := ' ') (by decide) hes
  have hClosing : Delimited [')'] := by simp [Delimited, isWordChar, isDelimiter]
  refine ⟨.list l δs, ?_, Derivation.expr?_list.mpr ⟨a, es, hAtom, hExprs, rfl⟩⟩
  rw [toList_display ha]
  exact (hHead.append (hChildren.append .closing hClosing) (hDelimited.append hClosing)).opening

/-- Inside another expression. The induction is on the expression; only a leaf
has no parentheses. -/
theorem IsPrintable.spelled_write {e : Expr} (h : e.IsPrintable) :
    e.Spelled (write true e).toList := by
  induction h with
  | @node a es hHead hChildren ih =>
      cases es with
      | nil =>
          obtain ⟨l, hSpells, hAtom⟩ := hHead.spelled
          have hWrite : write true (Expr.node a []) = a.text := write_leaf hHead
          exact ⟨.atom l, hWrite ▸ hSpells, by simp [Derivation.expr?, hAtom, Expr.node, Expr.leaf]⟩
      | cons e es =>
          rw [write_node_cons]
          exact spelled_display hHead ih

/-- On its own. The text of the symbol `list` by itself stands for the empty list. -/
theorem IsPrintable.spelled_display {e : Expr} (h : e.IsPrintable)
    (hList : e ≠ Expr.leaf (.symbol Builtin.list.symbol)) : e.Spelled (display e).toList := by
  obtain @⟨a, es, hHead, hChildren⟩ := h
  have hForm := Expr.spelled_display hHead fun e he => (hChildren e he).spelled_write
  have hTree : ofListForm a es = Expr.node a es := by
    cases es with
    | nil =>
        have ha : a ≠ .symbol Builtin.list.symbol := fun h => hList (congrArg Expr.leaf h)
        exact if_neg ha
    | cons e es => rfl
  rwa [hTree] at hForm

end Expr

/-- Expressions that are written on lines of their own are read back as they
were. -/
theorem readSource_display (es : List Expr) (hPrintable : ∀ e ∈ es, e.IsPrintable)
    (hList : ∀ e ∈ es, e ≠ Expr.leaf (.symbol Builtin.list.symbol)) :
    readSource ("\n".intercalate (es.map Expr.display)) = .ok es := by
  have hSpelled : ∀ e ∈ es, e.Spelled e.display.toList :=
    fun e he => (hPrintable e he).spelled_display (hList e he)
  have hText : ∃ δs, Spells ("\n".intercalate (es.map Expr.display)).toList
      (Derivation.tokensAll δs) ∧ Derivation.exprs? δs = some es := by
    cases es with
    | nil => exact ⟨[], Spells.nil, rfl⟩
    | cons e es =>
        obtain ⟨⟨δ, hFirst, he⟩, hRest⟩ := List.forall_mem_cons.mp hSpelled
        obtain ⟨hDelimited, δs, hLater, hes⟩ := Expr.spells_flatMap (c := '\n') (by decide) hRest
        refine ⟨δ :: δs, ?_, Derivation.exprs?_cons.mpr ⟨e, es, he, hes, rfl⟩⟩
        rw [List.map_cons, Expr.toList_intercalate_cons (c := '\n') (by simp), List.flatMap_map]
        exact hFirst.append hLater hDelimited
  obtain ⟨δs, hSpells, hes⟩ := hText
  exact readSource_eq_ok_iff.mpr ⟨δs, hSpells.lex, hes⟩

/-- A number, and a string that holds a parenthesis, a semicolon and a line
break, as children; a string as a head; and a leaf at the top. -/
theorem readSource_display_mixed :
    let f : Symbol := ⟨"f", by decide⟩
    let es := [Expr.node (.symbol f) [.number 2.5, .string "a;)\n"],
      Expr.node (.string "(") [.leaf (.symbol f)], Expr.leaf (.symbol f)]
    readSource "(f 2.5 \"a;)\n\")\n(\"(\" f)\n(f)" = .ok es := by
  intro f es
  have hDigits : Atom.numberText 2.5 = "2.5" := by decide +kernel
  have hText : "\n".intercalate (es.map Expr.display) = "(f 2.5 \"a;)\n\")\n(\"(\" f)\n(f)" := by
    simp [es, f, Expr.display, Expr.write, Expr.writeAll, Expr.node, Expr.leaf, Expr.string,
      Expr.number, Expr.headWords, Expr.isWord, Expr.wordText, Atom.text, hDigits]
  have hSymbol : (Expr.leaf (.symbol f)).IsPrintable := .leaf (by decide +kernel)
  have hNumber : (Expr.number 2.5).IsPrintable := .leaf (by decide +kernel)
  have hString : (Expr.string "a;)\n").IsPrintable := .leaf (by decide +kernel)
  have hCall : (Expr.node (.symbol f) [.number 2.5, .string "a;)\n"]).IsPrintable :=
    .node (by decide +kernel) (by simpa using ⟨hNumber, hString⟩)
  have hHeaded : (Expr.node (.string "(") [.leaf (.symbol f)]).IsPrintable :=
    .node (by decide +kernel) (by simpa using hSymbol)
  rw [← hText]
  exact readSource_display es (by simpa [es] using ⟨hCall, hHeaded, hSymbol⟩)
    (by simp [es, f, Expr.node, Expr.leaf, Builtin.symbol, Builtin.name])

end PlotLang
