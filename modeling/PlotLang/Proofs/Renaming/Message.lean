import PlotLang.Proofs.Renaming.View

/-! Texts show no addresses. A renaming that keeps all names leaves the text of
every expression and the message of every error as they are. -/
namespace PlotLang
variable (scope : ScopeId → ScopeId) (identity : Nat → Nat)

namespace Atom

/-- No address of a scope is ever written. -/
theorem text_ofAddresses (a : Atom) : (a.rename (.ofAddresses scope identity)).text = a.text := by
  cases a <;> rfl

end Atom

namespace Closure

theorem formals_ofAddresses (c : Closure) :
    (c.rename (.ofAddresses scope identity)).formals = c.formals := by
  simp [Closure.rename, Renaming.ofAddresses]

/-- A procedure is written by its parameters; its scope and its identity are not
shown. -/
theorem text_ofAddresses (c : Closure) : (c.rename (.ofAddresses scope identity)).text = c.text := by
  simp [Closure.text, formals_ofAddresses]

end Closure

namespace Expr

theorem isWord_ofAddresses (a : Atom) :
    isWord (a.rename (.ofAddresses scope identity)) = isWord a := by
  cases a <;> rfl

theorem headWords_ofAddresses (a : Atom) :
    headWords (a.rename (.ofAddresses scope identity)) = headWords a := by
  cases a with
  | lambda c => simp [Atom.rename, headWords, Closure.text_ofAddresses]
  | _ => rfl

theorem wordText_ofAddresses (nested : Bool) (a : Atom) :
    wordText nested (a.rename (.ofAddresses scope identity)) = wordText nested a := by
  cases a <;> rfl

/-- The induction follows the parts of the expression, as writing does. -/
theorem write_ofAddresses (nested : Bool) (e : Expr) :
    (e.rename (.ofAddresses scope identity)).write nested = e.write nested := by
  induction e using Expr.induct generalizing nested with
  | node e hTail _ =>
      obtain ⟨a, es, ps⟩ := e
      rw [rename_mk]
      cases es with
      | nil =>
          rw [List.map_nil, write, write, isWord_ofAddresses, wordText_ofAddresses,
            headWords_ofAddresses]
      | cons e es =>
          have hChildren : (es.map (rename (.ofAddresses scope identity))).map (write true) =
              es.map (write true) := by
            rw [List.map_map]
            exact List.map_congr_left fun c hc => hTail c (List.mem_cons_of_mem e hc) true
          rw [List.map_cons, write, write, writeAll_eq_map, writeAll_eq_map, headWords_ofAddresses,
            hTail e List.mem_cons_self true, hChildren]

/-- Expressions that differ in addresses only are displayed alike. -/
theorem display_ofAddresses (e : Expr) :
    (e.rename (.ofAddresses scope identity)).display = e.display :=
  write_ofAddresses scope identity false e

end Expr

/-! Only some errors quote an expression or a procedure. -/

/-- Causes quote expressions by their display. -/
theorem Mismatch.text_ofAddresses (cause : Mismatch) :
    (cause.rename (.ofAddresses scope identity)).text = cause.text := by
  cases cause with
  | notPlotObject key target | optionEntry target | plotEntry target | sampleNotNumber target =>
      have hDisplay := target.display_ofAddresses scope identity
      unfold Mismatch.rename text
      dsimp only
      rw [hDisplay]
  | _ => simp only [Mismatch.rename]

theorem ArityFault.text_ofAddresses (cause : ArityFault) :
    (cause.rename (.ofAddresses scope identity)).text = cause.text := by
  cases cause with
  | builtin b allowed got => rfl
  | lambda c got =>
      unfold ArityFault.rename text
      dsimp only
      rw [Closure.text_ofAddresses, Closure.formals_ofAddresses]

theorem NotCallable.text_ofAddresses (cause : NotCallable) :
    (cause.rename (.ofAddresses scope identity)).text = cause.text := by
  cases cause with
  | head a =>
      unfold NotCallable.rename text
      dsimp only
      rw [Atom.text_ofAddresses]
  | value proc | argument form proc =>
      have hDisplay := proc.display_ofAddresses scope identity
      unfold NotCallable.rename text
      dsimp only
      rw [hDisplay]
  | keyword given form => simp only [NotCallable.rename]

theorem Malformed.text_ofAddresses (cause : Malformed) :
    (cause.rename (.ofAddresses scope identity)).text = cause.text := by
  have hName (x : Symbol) : (Renaming.ofAddresses scope identity).symbol x = x := rfl
  cases cause with
  | parameterNotSymbol e =>
      unfold Malformed.rename text
      dsimp only
      rw [Expr.display_ofAddresses]
  | _ => simp only [Malformed.rename, hName]

namespace EvalError

/-- Renaming an error keeps its kind, since the kind is told by the constructor. -/
theorem kind?_rename (r : Renaming) (e : EvalError) : (e.rename r).kind? = e.kind? := by
  cases e <;> rfl

/-- Errors that differ in addresses only have the same message. -/
theorem message_ofAddresses (e : EvalError) :
    (e.rename (.ofAddresses scope identity)).message = e.message := by
  have hReason : (e.rename (.ofAddresses scope identity)).reason = e.reason := by
    unfold reason
    cases e with
    | unbound x => rfl
    | mismatch cause => exact cause.text_ofAddresses scope identity
    | arity cause => exact cause.text_ofAddresses scope identity
    | notCallable cause => exact cause.text_ofAddresses scope identity
    | malformed cause => exact cause.text_ofAddresses scope identity
    | stackExhausted limit => rfl
    | number fault => rfl
  unfold message
  rw [hReason, kind?_rename]

end EvalError
end PlotLang
