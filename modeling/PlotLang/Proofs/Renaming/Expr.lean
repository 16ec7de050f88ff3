import Mathlib.Logic.Function.Basic
import PlotLang.Expr

/-! Renaming of what an expression refers to: names, addresses of scopes and
identities of procedures. Numbers, texts, built-in procedures and the shape of
the expression stay. Keywords keep their names, so a renaming never turns one
form into another. -/
namespace PlotLang

/-- A renaming of names, scopes and procedure identities. Only names have to
stay apart; two scopes may get the same address. -/
structure Renaming where
  symbol : Symbol → Symbol
  scope : ScopeId → ScopeId
  identity : Nat → Nat
  injective : Function.Injective symbol
  keyword : ∀ k : Keyword, symbol k.symbol = k.symbol
  /-- The empty list stands for a parameter list of this one name. -/
  listName : symbol Builtin.list.symbol = Builtin.list.symbol

namespace Renaming

/-- A renaming that keeps all names. -/
def ofAddresses (scope : ScopeId → ScopeId) (identity : Nat → Nat) : Renaming where
  symbol := id
  scope
  identity
  injective := Function.injective_id
  keyword := fun _ => rfl
  listName := rfl

def refl : Renaming := ofAddresses id id

@[simp] theorem symbol_refl : refl.symbol = id := rfl

@[simp] theorem scope_refl : refl.scope = id := rfl

@[simp] theorem identity_refl : refl.identity = id := rfl

end Renaming

def Closure.rename (r : Renaming) (c : Closure) : Closure :=
  { identity := r.identity c.identity, formals := c.formals.map r.symbol, scope := r.scope c.scope }

/-- Only symbols and procedures made by `lambda` refer to anything. -/
def Atom.rename (r : Renaming) : Atom → Atom
  | .symbol s => .symbol (r.symbol s)
  | .lambda c => .lambda (c.rename r)
  | a => a

namespace Expr

mutual

/-- The expression under new names: head, children and properties. -/
def rename (r : Renaming) : Expr → Expr
  | ⟨a, es, ps⟩ => ⟨a.rename r, renameAll r es, renameProperties r ps⟩

def renameAll (r : Renaming) : List Expr → List Expr
  | [] => []
  | e :: es => rename r e :: renameAll r es

def renameProperties (r : Renaming) : List (String × Expr) → List (String × Expr)
  | [] => []
  | p :: ps => renameProperty r p :: renameProperties r ps

def renameProperty (r : Renaming) : String × Expr → String × Expr
  | (k, v) => (k, rename r v)

end

/-- Induction over children and property values. -/
theorem induct {P : Expr → Prop}
    (node : ∀ e : Expr, (∀ c ∈ e.tail, P c) → (∀ p ∈ e.properties, P p.2) → P e) (e : Expr) :
    P e := by
  refine @Expr.rec P (fun es => ∀ c ∈ es, P c) (fun ps => ∀ p ∈ ps, P p.2) (fun p => P p.2)
    ?_ ?_ ?_ ?_ ?_ ?_ e
  · intro a es ps hTail hProperties
    exact node ⟨a, es, ps⟩ hTail hProperties
  · simp
  · intro e es he hes
    simpa using ⟨he, hes⟩
  · simp
  · intro p ps hp hps
    exact List.forall_mem_cons.mpr ⟨hp, hps⟩
  · intro k v hv
    exact hv

variable (r : Renaming) (e : Expr)

private theorem renameAll_eq_map (es : List Expr) : renameAll r es = es.map (rename r) := by
  induction es with
  | nil => rfl
  | cons e es ih => simp [renameAll, ih]

private theorem renameProperties_eq_map (ps : List (String × Expr)) :
    renameProperties r ps = ps.map fun p => (p.1, p.2.rename r) := by
  induction ps with
  | nil => rfl
  | cons p ps ih =>
      obtain ⟨k, v⟩ := p
      simp [renameProperties, renameProperty, ih]

/-- Renaming goes through head, children and properties alike; the keys of
properties are texts and stay. -/
theorem rename_mk (a : Atom) (es : List Expr) (ps : List (String × Expr)) :
    rename r ⟨a, es, ps⟩ =
      ⟨a.rename r, es.map (rename r), ps.map fun p => (p.1, p.2.rename r)⟩ := by
  rw [rename, renameAll_eq_map, renameProperties_eq_map]

@[simp] theorem head_rename : (e.rename r).head = e.head.rename r := by
  cases e
  rw [rename_mk]

@[simp] theorem tail_rename : (e.rename r).tail = e.tail.map (rename r) := by
  cases e
  rw [rename_mk]

@[simp] theorem properties_rename :
    (e.rename r).properties = e.properties.map fun p => (p.1, p.2.rename r) := by
  cases e
  rw [rename_mk]

@[simp] theorem rename_leaf (a : Atom) : (leaf a).rename r = leaf (a.rename r) := by
  simp [leaf, rename_mk]

@[simp] theorem rename_node (a : Atom) (es : List Expr) :
    (node a es).rename r = node (a.rename r) (es.map (rename r)) := by
  simp [node, rename_mk]

@[simp] theorem rename_none : none.rename r = none := rename_leaf r .none

@[simp] theorem rename_number (x : Float) : (number x).rename r = number x :=
  rename_leaf r (.number x)

@[simp] theorem rename_string (text : String) : (string text).rename r = string text :=
  rename_leaf r (.string text)

@[simp] theorem rename_list (es : List Expr) : (list es).rename r = list (es.map (rename r)) :=
  rename_node r .list es

@[simp] theorem rename_lambda (c : Closure) (body : Expr) :
    (lambda c body).rename r = lambda (c.rename r) (body.rename r) :=
  rename_node r (.lambda c) [body]

@[simp] theorem rename_plot (name : String) (items : List Expr) :
    (plot name items).rename r = plot name (items.map (rename r)) :=
  rename_node r (.discrete name) items

end Expr

namespace Expr

mutual

/-- All heads in an expression, those in the values of properties included. -/
def atoms : Expr → List Atom
  | ⟨a, es, ps⟩ => a :: (atomsAll es ++ atomsProperties ps)

def atomsAll : List Expr → List Atom
  | [] => []
  | e :: es => atoms e ++ atomsAll es

def atomsProperties : List (String × Expr) → List Atom
  | [] => []
  | p :: ps => atomsProperty p ++ atomsProperties ps

def atomsProperty : String × Expr → List Atom
  | (_, v) => atoms v

end

private theorem mem_atomsAll {a : Atom} {es : List Expr} :
    a ∈ atomsAll es ↔ ∃ c ∈ es, a ∈ c.atoms := by
  induction es with
  | nil => simp [atomsAll]
  | cons e es ih => simp [atomsAll, ih]

private theorem mem_atomsProperties {a : Atom} {ps : List (String × Expr)} :
    a ∈ atomsProperties ps ↔ ∃ p ∈ ps, a ∈ p.2.atoms := by
  induction ps with
  | nil => simp [atomsProperties]
  | cons p ps ih =>
      obtain ⟨k, v⟩ := p
      simp only [atomsProperties, atomsProperty, List.mem_append, ih, List.mem_cons, or_and_right,
        exists_or, exists_eq_left]

/-- The atoms of an expression are its head and those of its parts. -/
theorem mem_atoms {a : Atom} {e : Expr} :
    a ∈ e.atoms ↔
      a = e.head ∨ (∃ c ∈ e.tail, a ∈ c.atoms) ∨ ∃ p ∈ e.properties, a ∈ p.2.atoms := by
  cases e
  simp only [atoms, List.mem_cons, List.mem_append, mem_atomsAll, mem_atomsProperties]

theorem head_mem_atoms (e : Expr) : e.head ∈ e.atoms := mem_atoms.mpr (.inl rfl)

/-- Children contribute their atoms. -/
theorem mem_atoms_of_mem_tail {a : Atom} {e c : Expr} (hChild : c ∈ e.tail) (ha : a ∈ c.atoms) :
    a ∈ e.atoms := mem_atoms.mpr (.inr (.inl ⟨c, hChild, ha⟩))

/-- Values of properties contribute their atoms. -/
theorem mem_atoms_of_mem_properties {a : Atom} {e : Expr} {p : String × Expr}
    (hProperty : p ∈ e.properties) (ha : a ∈ p.2.atoms) : a ∈ e.atoms :=
  mem_atoms.mpr (.inr (.inr ⟨p, hProperty, ha⟩))

/-- An expression whose heads all keep their names is left as it is. -/
theorem rename_eq_self {r : Renaming} {e : Expr} (h : ∀ a ∈ e.atoms, a.rename r = a) :
    e.rename r = e := by
  induction e using Expr.induct with
  | node e hTail hProperties =>
      obtain ⟨a, es, ps⟩ := e
      have hHead : a.rename r = a := h a (head_mem_atoms _)
      have hChildren : es.map (rename r) = es.map id :=
        List.map_congr_left fun c hc =>
          hTail c hc fun b hb => h b (mem_atoms_of_mem_tail hc hb)
      have hValues : (ps.map fun p => (p.1, p.2.rename r)) = ps.map id :=
        List.map_congr_left fun p hp => Prod.ext rfl <|
          hProperties p hp fun b hb => h b (mem_atoms_of_mem_properties hp hb)
      rw [rename_mk, hHead, hChildren, hValues, List.map_id, List.map_id]

end Expr

@[simp] theorem Closure.rename_refl (c : Closure) : c.rename .refl = c := by
  simp [Closure.rename]

@[simp] theorem Atom.rename_refl (a : Atom) : a.rename .refl = a := by
  cases a with
  | lambda c => simp [Atom.rename]
  | _ => rfl

@[simp] theorem Expr.rename_refl : Expr.rename .refl = id :=
  funext fun _ => Expr.rename_eq_self fun a _ => a.rename_refl

end PlotLang
