import PlotLang.Source.Stream

/-!
Reading whole source texts. Each form that is read takes at least one token, so reading form after
form comes to an end.
-/

namespace PlotLang

namespace TokenStream

/-- Reading a form leaves fewer tokens than it was given. -/
theorem length_pending_lt_of_readForm {fault : Option SyntaxError} {tokens : List Token}
    {r : ReadState} {e : Expr} {s : TokenStream}
    (h : readForm fault r tokens = .ok (some e) s) : s.pending.length < tokens.length := by
  induction tokens generalizing r with
  | nil =>
    simp only [readForm] at h
    split at h
    · cases h
    · split at h <;> cases h
  | cons t rest ih =>
    simp only [readForm] at h
    split at h
    · exact Nat.lt_succ_of_lt (ih h)
    · cases h
      simp [pending]
    · cases h

/-- Reading a form takes at least one token. -/
theorem length_pending_lt_of_parse {s s' : TokenStream} {e : Expr}
    (h : parse s = .ok (some e) s') : s'.pending.length < s.pending.length :=
  length_pending_lt_of_readForm h

/-- The forms from here on up to the first fault, and the fault. -/
def readForms (s : TokenStream) : List Expr × Option SyntaxError :=
  match _h : parse s with
  | .error e _ => ([], some e)
  | .ok none _ => ([], none)
  | .ok (some form) s' =>
    let (forms, fault) := readForms s'
    (form :: forms, fault)
termination_by s.pending.length
decreasing_by exact length_pending_lt_of_parse _h

end TokenStream

/-- The forms of a source text, or its first fault. -/
def readSource (source : String) : Except SyntaxError (List Expr) :=
  match (TokenStream.ofSource source).readForms with
  | (forms, none) => .ok forms
  | (_, some e) => .error e

end PlotLang
