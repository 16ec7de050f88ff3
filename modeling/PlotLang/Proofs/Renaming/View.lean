import PlotLang.Error
import PlotLang.Expr.PlotObject
import PlotLang.Form
import PlotLang.Proofs.Renaming.Expr
import PlotLang.Proofs.Table

/-! What a rule of evaluation reads off an expression does not depend on the
names in it. Numbers and texts come out the same, and whatever is itself an
expression or a name comes out renamed. Errors that quote expressions quote the
renamed ones. -/
namespace PlotLang

namespace Renaming
variable (r : Renaming)

/-- Keywords are fixed, and no other name is renamed into one. -/
theorem symbol_eq_keyword_iff (x : Symbol) (k : Keyword) :
    r.symbol x = k.symbol ↔ x = k.symbol := by
  rw [← r.injective.eq_iff (a := x), r.keyword]

/-- A name is a keyword after renaming only if it was one before. -/
@[simp] theorem ofSymbol?_symbol (x : Symbol) :
    Keyword.ofSymbol? (r.symbol x) = Keyword.ofSymbol? x := by
  have hName (k : Keyword) (y : Symbol) : (k.name == y.name) = decide (y = k.symbol) := by
    rw [beq_eq_decide]
    refine decide_eq_decide.mpr ⟨fun h => Symbol.eq_of_name_eq h.symm, fun h => ?_⟩
    rw [h]
    rfl
  simp only [Keyword.ofSymbol?, hName, symbol_eq_keyword_iff]

@[simp] theorem isKeyword_symbol (x : Symbol) : (r.symbol x).isKeyword = x.isKeyword := by
  simp [Symbol.isKeyword]

end Renaming

namespace Expr
variable (r : Renaming) (e : Expr)

@[simp] theorem isLeaf_rename : (e.rename r).isLeaf = e.isLeaf := by
  simp [isLeaf]

@[simp] theorem isList_rename : (e.rename r).isList = e.isList := by
  cases h : e.head <;> simp [isList, h, Atom.rename]

@[simp] theorem isPlot_rename : (e.rename r).isPlot = e.isPlot := by
  cases h : e.head <;> simp [isPlot, h, Atom.rename]

@[simp] theorem isCallable_rename : (e.rename r).isCallable = e.isCallable := by
  cases h : e.head <;> simp [isCallable, h, Atom.rename]

@[simp] theorem headString?_rename : (e.rename r).headString? = e.headString? := by
  cases h : e.head <;> simp [headString?, h, Atom.rename]

@[simp] theorem headNumber?_rename : (e.rename r).headNumber? = e.headNumber? := by
  cases h : e.head <;> simp [headNumber?, h, Atom.rename]

@[simp] theorem asString?_rename : (e.rename r).asString? = e.asString? := by
  simp [asString?]

@[simp] theorem asNumber?_rename : (e.rename r).asNumber? = e.asNumber? := by
  simp [asNumber?]

@[simp] theorem asSymbol?_rename : (e.rename r).asSymbol? = e.asSymbol?.map r.symbol := by
  obtain ⟨a, es, ps⟩ := e
  cases a <;> cases es <;> simp [asSymbol?, rename_mk, Atom.rename]

@[simp] theorem asPair?_rename : (e.rename r).asPair? = e.asPair? := by
  obtain ⟨a, es, ps⟩ := e
  match a, es with
  | .list, [x, y] => simp [asPair?, rename_mk, Atom.rename]
  | .list, [] | .list, [_] | .list, _ :: _ :: _ :: _ => simp [asPair?, rename_mk, Atom.rename]
  | .none, _ | .number _, _ | .complex _, _ | .symbol _, _ | .string _, _ | .procedure _, _
  | .lambda _, _ | .discrete _, _ => simp [asPair?, rename_mk, Atom.rename]

/-- Properties are found by the same keys. -/
@[simp] theorem property?_rename (key : String) :
    (e.rename r).property? key = (e.property? key).map (rename r) := by
  simp only [property?, properties_rename]
  exact Table.get?_map Function.injective_id (rename r) e.properties key

@[simp] theorem rename_setProperty (key : String) (value : Expr) :
    (e.setProperty key value).rename r = (e.rename r).setProperty key (value.rename r) := by
  obtain ⟨a, es, ps⟩ := e
  simp only [setProperty, rename_mk]
  congr 1
  exact (Table.put_map Function.injective_id (rename r) ps key value).symm

@[simp] theorem objectName?_rename : (e.rename r).objectName? = e.objectName? := by
  cases h : e.property? objectNameKey <;> simp [objectName?, h]

@[simp] theorem isPlotObject_rename : (e.rename r).isPlotObject = e.isPlotObject := by
  simp [isPlotObject]

@[simp] theorem isPoint_rename : (e.rename r).isPoint = e.isPoint := by
  simp [isPoint]

@[simp] theorem isCompoundValue_rename : (e.rename r).isCompoundValue = e.isCompoundValue := by
  cases h : e.head <;> simp [isCompoundValue, h, Atom.rename]

end Expr

def Form.rename (r : Renaming) : Form → Form
  | .literal => .literal
  | .variable x => .variable (r.symbol x)
  | .special k args => .special k (args.map (Expr.rename r))
  | .call head args => .call (head.rename r) (args.map (Expr.rename r))

/-- Renaming keeps the rule by which an expression is evaluated. -/
@[simp] theorem Expr.form_rename (r : Renaming) (e : Expr) :
    (e.rename r).form = e.form.rename r := by
  cases hHead : e.head with
  | symbol x =>
      cases hKeyword : Keyword.ofSymbol? x with
      | none =>
          by_cases hLeaf : e.isLeaf
          · simp [form, hHead, Atom.rename, hKeyword, hLeaf, Form.rename]
          · simp [form, hHead, Atom.rename, hKeyword, hLeaf, Form.rename]
      | some k => simp [form, hHead, Atom.rename, hKeyword, Form.rename]
  | _ =>
      by_cases hLiteral : (e.isLeaf || e.isCompoundValue) = true
      · simp [form, hHead, Atom.rename, hLiteral, Form.rename]
      · simp [form, hHead, Atom.rename, hLiteral, Form.rename]

/-! Errors quote names and expressions, so they are renamed with them. -/

def Mismatch.rename (r : Renaming) : Mismatch → Mismatch
  | .notPlotObject key target => .notPlotObject key (target.rename r)
  | .optionEntry entry => .optionEntry (entry.rename r)
  | .plotEntry entry => .plotEntry (entry.rename r)
  | .sampleNotNumber value => .sampleNotNumber (value.rename r)
  | m => m

def ArityFault.rename (r : Renaming) : ArityFault → ArityFault
  | .builtin b allowed got => .builtin b allowed got
  | .lambda c got => .lambda (c.rename r) got

def NotCallable.rename (r : Renaming) : NotCallable → NotCallable
  | .head a => .head (a.rename r)
  | .value proc => .value (proc.rename r)
  | .keyword given form => .keyword given form
  | .argument form proc => .argument form (proc.rename r)

def Malformed.rename (r : Renaming) : Malformed → Malformed
  | .redefinesKeyword x => .redefinesKeyword (r.symbol x)
  | .redefinesBuiltin x => .redefinesBuiltin (r.symbol x)
  | .parameterNotSymbol e => .parameterNotSymbol (e.rename r)
  | .parameterKeyword x => .parameterKeyword (r.symbol x)
  | .parameterDuplicate x => .parameterDuplicate (r.symbol x)
  | m => m

def EvalError.rename (r : Renaming) : EvalError → EvalError
  | .unbound x => .unbound (r.symbol x)
  | .mismatch cause => .mismatch (cause.rename r)
  | .arity cause => .arity (cause.rename r)
  | .notCallable cause => .notCallable (cause.rename r)
  | .malformed cause => .malformed (cause.rename r)
  | .stackExhausted limit => .stackExhausted limit
  | .number fault => .number fault

/-- The error of a renamed computation, or the image of its result. -/
def Renaming.result {α β : Type} (r : Renaming) (f : α → β) :
    Except EvalError α → Except EvalError β
  | .ok a => .ok (f a)
  | .error e => .error (e.rename r)

/-- The renaming that changes nothing leaves errors as they are. -/
@[simp] theorem EvalError.rename_refl (e : EvalError) : e.rename .refl = e := by
  cases e with
  | mismatch cause => cases cause <;> simp [EvalError.rename, Mismatch.rename]
  | arity cause => cases cause <;> simp [EvalError.rename, ArityFault.rename]
  | notCallable cause => cases cause <;> simp [EvalError.rename, NotCallable.rename]
  | malformed cause =>
      cases cause <;> simp [EvalError.rename, Malformed.rename]
  | _ => rfl

end PlotLang
