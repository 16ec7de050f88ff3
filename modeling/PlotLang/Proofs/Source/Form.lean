import PlotLang.Proofs.Source.Word
import PlotLang.Source.Reader

/-! What the reader builds. A form has no properties, and its nodes are headed by
what a word or a string denotes; besides there are only the missing value and
the empty list. In particular a form holds no procedure. -/
namespace PlotLang

/-- An expression as the reader builds it. -/
inductive Expr.IsForm : Expr → Prop where
  | none : IsForm Expr.none
  | list : IsForm (Expr.list [])
  | node {a : Atom} {es : List Expr} (hHead : ∃ text, Atom.ofWord? text = some a)
      (hChildren : ∀ e ∈ es, IsForm e) : IsForm (Expr.node a es)

/-- The kinds of atoms that the source text can denote. -/
def Atom.isWritten : Atom → Bool
  | .number _ | .symbol _ | .string _ => true
  | _ => false

/-- Texts of tokens denote numbers, strings and symbols only. -/
theorem Atom.isWritten_of_ofWord? {text : String} {a : Atom} (h : Atom.ofWord? text = some a) :
    a.isWritten = true := by
  obtain ⟨x, rfl⟩ | ⟨body, rfl⟩ | ⟨s, _, rfl⟩ := kind_of_ofWord? h
  all_goals rfl

/-- A form that is being read is all forms so far. -/
structure OpenForm.IsForm (f : OpenForm) : Prop where
  head : ∃ text, Atom.ofWord? text = some f.head
  children : ∀ e ∈ f.children, e.IsForm

theorem OpenForm.IsForm.add {f : OpenForm} {e : Expr} (hf : f.IsForm) (he : e.IsForm) :
    (f.add e).IsForm where
  head := hf.head
  children := List.forall_mem_cons.mpr ⟨he, hf.children⟩

/-- A closed list is a form, the empty list of the word `list` included. -/
theorem OpenForm.IsForm.close {f : OpenForm} (hf : f.IsForm) : f.close.IsForm := by
  have hNode : (Expr.node f.head f.children.reverse).IsForm :=
    .node hf.head fun e he => hf.children e (List.mem_reverse.mp he)
  have hLeaf : (Expr.leaf f.head).IsForm := .node hf.head (by simp)
  unfold OpenForm.close
  split
  · split
    · exact .list
    · exact hLeaf
  · exact hNode

/-- What a token makes of forms is again made of forms. -/
def ReadStep.IsForm : ReadStep → Prop
  | .more r => ∀ f ∈ r.outer, f.IsForm
  | .done (.ok e) => e.IsForm
  | .done (.error _) => True

namespace TokenStream

/-- A complete form is added as a child, or is the answer. -/
theorem supply_isForm {e : Expr} {outer : List OpenForm} (he : e.IsForm)
    (hOuter : ∀ f ∈ outer, f.IsForm) : (supply e outer).IsForm := by
  cases outer with
  | nil => exact he
  | cons f fs =>
      obtain ⟨hf, hfs⟩ := List.forall_mem_cons.mp hOuter
      exact List.forall_mem_cons.mpr ⟨hf.add he, hfs⟩

/-- One token keeps all open forms well-made. -/
theorem readToken_isForm {r : ReadState} (hOuter : ∀ f ∈ r.outer, f.IsForm) (t : Token) :
    (readToken r t).IsForm := by
  cases t with
  | opening =>
      rw [readToken]
      split
      · trivial
      · exact hOuter
  | closing =>
      rw [readToken]
      split
      · exact supply_isForm .none hOuter
      · cases hOpen : r.outer with
        | nil => trivial
        | cons f fs =>
            rw [hOpen] at hOuter
            obtain ⟨hf, hfs⟩ := List.forall_mem_cons.mp hOuter
            exact supply_isForm hf.close hfs
  | string text | word text =>
      rw [readToken]
      cases hWord : Atom.ofWord? text with
      | none => trivial
      | some a =>
          dsimp only
          split
          · exact List.forall_mem_cons.mpr ⟨⟨⟨text, hWord⟩, by simp⟩, hOuter⟩
          · exact supply_isForm (.node ⟨text, hWord⟩ (by simp)) hOuter

/-- The induction is on the tokens; the open forms are what it carries along. -/
theorem isForm_of_readForm {fault : Option SyntaxError} {tokens : List Token} {r : ReadState}
    {e : Expr} {rest : TokenStream} (hOuter : ∀ f ∈ r.outer, f.IsForm)
    (h : readForm fault r tokens = .ok (some e) rest) : e.IsForm := by
  induction tokens generalizing r with
  | nil =>
      simp only [readForm] at h
      split at h
      · cases h
      · split at h <;> cases h
  | cons t tokens ih =>
      have hStep := readToken_isForm hOuter t
      rw [readForm] at h
      cases hRead : readToken r t with
      | more r' =>
          rw [hRead] at h hStep
          exact ih hStep h
      | done answer =>
          rw [hRead] at h hStep
          cases answer with
          | ok e' =>
              cases h
              exact hStep
          | error fault => cases h

theorem isForm_of_parse {stream rest : TokenStream} {e : Expr}
    (h : stream.parse = .ok (some e) rest) : e.IsForm :=
  isForm_of_readForm (r := {}) (by simp) h

/-- Whatever a text has in front of its first fault, forms are read from it. The
induction is that of reading. -/
theorem isForm_of_readForms (stream : TokenStream) : ∀ e ∈ stream.readForms.1, e.IsForm := by
  fun_induction readForms stream with
  | case1 => simp
  | case2 => simp
  | case3 stream form rest hParse forms fault hRest ih =>
      rw [hRest] at ih
      exact List.forall_mem_cons.mpr ⟨isForm_of_parse hParse, ih⟩

end TokenStream
end PlotLang
