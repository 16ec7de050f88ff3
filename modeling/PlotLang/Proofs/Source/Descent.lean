import PlotLang.Proofs.Source.Recognition

/-! Reading a form by descent. The reader of a stream goes over the tokens once and
keeps the open forms in a list. It reads what a procedure reads that takes a token
at a time, looks one token ahead and calls itself for each child of a form. A child
is read inside an open form as it is read alone: its reading never looks at the
forms around it. Nothing bounds how deep the calls nest; a host whose stack is
bounded gives up on a text with too many open forms. -/
namespace PlotLang

/-- The reading of a child, as part of the reading of the form around it. -/
def ReadState.inside (f : OpenForm) (r : ReadState) : ReadState :=
  { r with outer := r.outer ++ [f] }

/-- Some form is open, so that a closing parenthesis can be read. -/
def ReadState.IsOpen (r : ReadState) : Prop := r.awaitingHead = true ∨ r.outer ≠ []

/-- What a step of the reading of a child is for the form around it, which goes on
when the child is complete. -/
def ReadStep.inside (f : OpenForm) : ReadStep → ReadStep
  | .more r => .more (r.inside f)
  | .done (.ok e) => .more { outer := [f.add e] }
  | .done (.error e) => .done (.error e)

namespace TokenStream

/-- A child that is complete is added to the form around it. -/
theorem supply_inside (f : OpenForm) (e : Expr) (outer : List OpenForm) :
    supply e (outer ++ [f]) = (supply e outer).inside f := by
  cases outer <;> rfl

theorem readToken_lexeme_inside (f : OpenForm) (r : ReadState) (l : Lexeme) :
    readToken (r.inside f) l.token = (readToken r l.token).inside f := by
  rw [readToken_lexeme, readToken_lexeme]
  cases l.atom? with
  | none => rfl
  | some a =>
      obtain ⟨awaiting, outer⟩ := r
      cases awaiting with
      | true => rfl
      | false => exact supply_inside f (Expr.leaf a) outer

/-- One token does the same to a child whether a form is open around it or not.
Only a closing parenthesis in place of the child is another matter: it closes the
form. -/
theorem readToken_inside {r : ReadState} {t : Token} (h : r.IsOpen ∨ t ≠ .closing)
    (f : OpenForm) : readToken (r.inside f) t = (readToken r t).inside f := by
  obtain ⟨awaiting, outer⟩ := r
  cases t with
  | word text => exact readToken_lexeme_inside f _ (.word text)
  | string lexeme => exact readToken_lexeme_inside f _ (.string lexeme)
  | opening => cases awaiting <;> rfl
  | closing =>
      cases awaiting with
      | true => exact supply_inside f Expr.none outer
      | false =>
          cases outer with
          | nil => simp [ReadState.IsOpen] at h
          | cons g gs => exact supply_inside f g.close gs

/-- A reading that goes on has a form open. -/
theorem isOpen_of_readToken {r r' : ReadState} {t : Token} (h : readToken r t = .more r') :
    r'.IsOpen := by
  have hSupply {e : Expr} {outer : List OpenForm} (h : supply e outer = .more r') :
      r'.IsOpen := by
    cases outer with
    | nil => cases h
    | cons f fs =>
        cases h
        exact .inr (by simp)
  have hLexeme (l : Lexeme) (h : readToken r l.token = .more r') : r'.IsOpen := by
    rw [readToken_lexeme] at h
    split at h
    · cases h
    · split at h
      · cases h
        exact .inr (by simp)
      · exact hSupply h
  cases t with
  | word text => exact hLexeme (.word text) h
  | string lexeme => exact hLexeme (.string lexeme) h
  | opening =>
      rw [readToken] at h
      split at h
      · cases h
      · cases h
        exact .inl rfl
  | closing =>
      rw [readToken] at h
      split at h
      · exact hSupply h
      · split at h
        · cases h
        · exact hSupply h

def parseChildren (f : OpenForm) : StreamM (Option Expr) := fun s =>
  readForm s.fault { outer := [f] } s.pending

/-- What the form around a child does when the child has been read. -/
def afterChild (f : OpenForm) : Option Expr → StreamM (Option Expr)
  | none => throw .unmatchedOpening
  | some e => parseChildren (f.add e)

/-- The induction is on the tokens. In front of the first one the child may not
have begun, and then it must not be a closing parenthesis. -/
theorem readForm_inside (fault : Option SyntaxError) (f : OpenForm) {r : ReadState}
    {tokens : List Token} (h : r.IsOpen ∨ tokens.head? ≠ some .closing) :
    readForm fault (r.inside f) tokens =
      match readForm fault r tokens with
      | .ok e s => afterChild f e s
      | .error e s => .error e s := by
  induction tokens generalizing r with
  | nil =>
      cases fault with
      | some e => rfl
      | none =>
          have hOuter : (r.inside f).outer.isEmpty = false := by simp [ReadState.inside]
          simp only [readForm, hOuter, Bool.not_false, Bool.or_true, if_true]
          by_cases hOpen : (r.awaitingHead || !r.outer.isEmpty) = true
          · rw [if_pos hOpen]
          · rw [if_neg hOpen]
            rfl
  | cons t rest ih =>
      have hFirst : r.IsOpen ∨ t ≠ .closing := by simpa using h
      rw [readForm_cons, readForm_cons, readToken_inside hFirst]
      cases hStep : readToken r t with
      | more r' => exact ih (.inl (isOpen_of_readToken hStep))
      | done answer => cases answer <;> rfl

/-! What follows an operation of the cursor, by the tokens still to be taken. -/

section Bind
variable {α : Type} (k : Option Token → StreamM α) (s : TokenStream)

theorem bind_advance :
    (advance >>= k) s =
      match s.pending, s.fault with
      | t :: rest, fault => k (some t) { lookahead := none, unread := rest, fault }
      | [], some e => .error e exhausted
      | [], none => k none exhausted := by
  obtain ⟨lookahead, unread, fault⟩ := s
  cases lookahead <;> cases unread <;> cases fault <;> rfl

theorem bind_peek :
    (peek >>= k) s =
      match s.pending, s.fault with
      | t :: rest, fault => k (some t) { lookahead := some t, unread := rest, fault }
      | [], some e => .error e exhausted
      | [], none => k none exhausted := by
  obtain ⟨lookahead, unread, fault⟩ := s
  cases lookahead <;> cases unread <;> cases fault <;> rfl

theorem bind_parse (k : Option Expr → StreamM α) :
    (parse >>= k) s =
      match readForm s.fault {} s.pending with
      | .ok e s' => k e s'
      | .error e s' => .error e s' := by
  simp only [bind, EStateM.bind, parse]
  cases readForm s.fault {} s.pending <;> rfl

end Bind

def denote (text : String) : StreamM Atom :=
  match Atom.ofWord? text with
  | none => throw (.invalidSymbol text)
  | some a => return a

/-- Behind its opening parenthesis a list closes at once, or has an atom as its head. -/
def descendList : StreamM (Option Expr) := do
  match ← advance with
  | none => throw .unmatchedOpening
  | some .closing => return some Expr.none
  | some .opening => throw .headNotAtom
  | some (.string text) | some (.word text) => parseChildren ⟨← denote text, []⟩

/-- A form is an atom or a list. -/
def descendForm : StreamM (Option Expr) := do
  match ← advance with
  | none => return none
  | some .closing => throw .unexpectedClosing
  | some (.string text) | some (.word text) => return some (Expr.leaf (← denote text))
  | some .opening => descendList

/-- The children of a form end at the closing parenthesis, which is looked for in
front of each of them. -/
def descendChildren (f : OpenForm) : StreamM (Option Expr) := do
  match ← peek with
  | none => throw .unmatchedOpening
  | some .closing =>
    let _ ← advance
    return some f.close
  | some _ => parse >>= afterChild f

theorem readForm_eq_descendList (s : TokenStream) :
    readForm s.fault { awaitingHead := true } s.pending = descendList s := by
  rw [descendList, bind_advance]
  cases s.pending with
  | nil => cases s.fault <;> rfl
  | cons t rest =>
      cases t with
      | closing | opening => rfl
      | word text | string text =>
          simp only [readForm_cons, readToken, denote]
          cases Atom.ofWord? text <;> rfl

/-- The reader is the procedure that takes a token and goes by what it is. -/
theorem parse_eq_descendForm : parse = descendForm := by
  funext s
  rw [parse, descendForm, bind_advance]
  cases s.pending with
  | nil => cases s.fault <;> rfl
  | cons t rest =>
      cases t with
      | closing => rfl
      | opening => exact readForm_eq_descendList ⟨none, rest, s.fault⟩
      | word text | string text =>
          simp only [readForm_cons, readToken, denote]
          cases Atom.ofWord? text <;> rfl

/-- In front of a child the reader of the stream stands inside the form, and the
child is read as it is read alone. -/
theorem parseChildren_eq_descendChildren (f : OpenForm) :
    parseChildren f = descendChildren f := by
  funext s
  rw [parseChildren, descendChildren, bind_peek]
  rcases hPending : s.pending with _ | ⟨t, rest⟩
  · cases s.fault <;> rfl
  · by_cases hClosing : t = .closing
    · subst hClosing
      rfl
    · have hBegins : ReadState.IsOpen {} ∨ (t :: rest).head? ≠ some .closing :=
        .inr (by simpa using hClosing)
      have hChild := readForm_inside s.fault f hBegins
      have hParse := bind_parse { lookahead := some t, unread := rest, fault := s.fault }
        (afterChild f)
      refine hChild.trans (hParse.symm.trans ?_)
      cases t with
      | closing => exact absurd rfl hClosing
      | opening | word text | string text => rfl

end TokenStream
end PlotLang
