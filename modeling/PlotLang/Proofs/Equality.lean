import Mathlib.Data.List.Forall2
import Mathlib.Data.List.Perm.Subperm
import PlotLang.Expr.Equality
import PlotLang.Proofs.FloatOrder
import PlotLang.Proofs.Renaming.Expr
import PlotLang.Proofs.Table

/-! Equality of expressions is an equivalence on expressions without undefined
numbers. The properties of two expressions are compared only if one of them is a
plot object, so transitivity rests on the fact that equal expressions are plot
objects together. -/
namespace PlotLang

namespace Atom

def isUndefined : Atom → Bool
  | number x => x.isNaN
  | complex z => z.hasNaN
  | _ => false

/-- What two equal atoms have in common. -/
inductive Equal : Atom → Atom → Prop where
  | none : Equal .none .none
  | number {x y : Float} (h : (x == y) = true) : Equal (.number x) (.number y)
  | complex {z w : Complex} (hRe : (z.re == w.re) = true) (hIm : (z.im == w.im) = true) :
      Equal (.complex z) (.complex w)
  | symbol (s : Symbol) : Equal (.symbol s) (.symbol s)
  | string (t : String) : Equal (.string t) (.string t)
  | procedure (b : Builtin) : Equal (.procedure b) (.procedure b)
  | list : Equal .list .list
  | lambda {c d : Closure} (h : c.identity = d.identity) : Equal (.lambda c) (.lambda d)
  | discrete (n : String) : Equal (.discrete n) (.discrete n)

/-- Atoms are equal if they are of one kind and their contents are equal. -/
theorem equal_iff {a b : Atom} : a.equal b = true ↔ Equal a b := by
  constructor
  · intro h
    unfold equal at h
    split at h
    · exact .none
    · exact .number h
    · obtain ⟨hRe, hIm⟩ := (Bool.and_eq_true _ _).mp h
      exact .complex hRe hIm
    · exact eq_of_beq h ▸ .symbol _
    · exact eq_of_beq h ▸ .string _
    · exact eq_of_beq h ▸ .procedure _
    · exact .list
    · exact .lambda (eq_of_beq h)
    · exact eq_of_beq h ▸ .discrete _
    · cases h
  · rintro (_ | h | ⟨hRe, hIm⟩ | s | t | b | _ | h | n)
    · rfl
    · exact h
    · exact (Bool.and_eq_true _ _).mpr ⟨hRe, hIm⟩
    · exact beq_self_eq_true s
    · exact beq_self_eq_true t
    · exact beq_self_eq_true b
    · rfl
    · exact beq_iff_eq.mpr h
    · exact beq_self_eq_true n

variable {a b c : Atom}

/-- Equality of numbers has no side that counts more. -/
theorem Equal.symm (h : Equal a b) : Equal b a := by
  cases h with
  | none => exact .none
  | number h => exact .number (float_beq_symm h)
  | complex hRe hIm => exact .complex (float_beq_symm hRe) (float_beq_symm hIm)
  | symbol s => exact .symbol s
  | string t => exact .string t
  | procedure b => exact .procedure b
  | list => exact .list
  | lambda h => exact .lambda h.symm
  | discrete n => exact .discrete n

/-- Atoms that are equal to a third one are of the same kind, so the kinds never
get in the way. -/
theorem Equal.trans (hab : Equal a b) (hbc : Equal b c) : Equal a c := by
  cases hab with
  | none | symbol s | string t | procedure b | list | discrete n => exact hbc
  | number h =>
      cases hbc with
      | number h' => exact .number (float_beq_trans h h')
  | complex hRe hIm =>
      cases hbc with
      | complex hRe' hIm' =>
          exact .complex (float_beq_trans hRe hRe') (float_beq_trans hIm hIm')
  | lambda h =>
      cases hbc with
      | lambda h' => exact .lambda (h.trans h')

/-- Only an undefined number differs from itself. -/
theorem Equal.refl (h : a.isUndefined = false) : Equal a a := by
  cases a with
  | none => exact .none
  | number x => exact .number (float_beq_self h)
  | complex z =>
      obtain ⟨hRe, hIm⟩ := Bool.or_eq_false_iff.mp h
      exact .complex (float_beq_self hRe) (float_beq_self hIm)
  | symbol s => exact .symbol s
  | string t => exact .string t
  | procedure b => exact .procedure b
  | list => exact .list
  | lambda c => exact .lambda rfl
  | discrete n => exact .discrete n

end Atom

/-! Lists that are compared place by place, and tables that are compared as
maps. What is known of the values in them may depend on where they stand. -/

section Lists
variable {α : Type} {R S T : α → α → Prop} {as bs cs : List α}

/-- The converse of a pairing. It is needed on members only, since equality is
proved of the parts of one expression. -/
theorem forall₂_symm_of_mem (h : List.Forall₂ R as bs)
    (hSymm : ∀ a ∈ as, ∀ b ∈ bs, R a b → S b a) : List.Forall₂ S bs as := by
  induction h with
  | nil => exact .nil
  | @cons a b as bs hHead _ ih =>
      refine .cons (hSymm a List.mem_cons_self b List.mem_cons_self hHead) (ih ?_)
      exact fun a' ha' b' hb' =>
        hSymm a' (List.mem_cons_of_mem a ha') b' (List.mem_cons_of_mem b hb')

/-- Two pairings one behind the other, needed on members only. -/
theorem forall₂_trans_of_mem (h : List.Forall₂ R as bs) (h' : List.Forall₂ S bs cs)
    (hTrans : ∀ a ∈ as, ∀ b ∈ bs, ∀ c, R a b → S b c → T a c) : List.Forall₂ T as cs := by
  induction h generalizing cs with
  | nil =>
      cases h'
      exact .nil
  | @cons a b as bs hHead _ ih =>
      cases h' with
      | cons hHead' hTail' =>
          refine .cons (hTrans a List.mem_cons_self b List.mem_cons_self _ hHead hHead') ?_
          exact ih hTail' fun a' ha' b' hb' =>
            hTrans a' (List.mem_cons_of_mem a ha') b' (List.mem_cons_of_mem b hb')

end Lists

namespace Table
variable {Key Value : Type} [DecidableEq Key]

/-- Tables of one size, the second with a related value under every key of the
first. -/
structure Matches (R : Value → Value → Prop) (ps qs : Table Key Value) : Prop where
  length : ps.length = qs.length
  found : ∀ p ∈ ps, ∃ w, get? qs p.1 = some w ∧ R p.2 w

variable {R S T : Value → Value → Prop} {ps qs rs : Table Key Value}

theorem Matches.exists_right (h : Matches R ps qs) {k : Key} {v : Value}
    (hv : get? ps k = some v) : ∃ w, get? qs k = some w ∧ R v w :=
  h.found (k, v) (mem_of_get? hv)

/-- Distinct keys leave no room for a key of the second table alone. -/
theorem Matches.exists_left (h : Matches R ps qs) (hKeys : (keys ps).Nodup) {k : Key} {w : Value}
    (hw : get? qs k = some w) : ∃ v, get? ps k = some v ∧ R v w := by
  have hSubset : keys ps ⊆ keys qs := by
    intro j hj
    obtain ⟨p, hp, rfl⟩ := List.mem_map.mp hj
    obtain ⟨w', hw', _⟩ := h.found p hp
    exact List.mem_map.mpr ⟨(p.1, w'), mem_of_get? hw', rfl⟩
  have hPerm : (keys ps).Perm (keys qs) :=
    (List.subperm_of_subset hKeys hSubset).perm_of_length_le (by simp [keys, h.length])
  have hKey : k ∈ keys ps := hPerm.mem_iff.mpr (List.mem_map_of_mem (mem_of_get? hw))
  obtain ⟨p, hp, rfl⟩ := List.mem_map.mp hKey
  obtain ⟨w', hw', hRelated⟩ := h.found p hp
  cases hw'.symm.trans hw
  exact ⟨p.2, get?_of_mem hKeys hp, hRelated⟩

/-- Tables without repeated keys match in both directions: they have as many
entries, and no key can be missing on one side. -/
theorem Matches.symm (h : Matches R ps qs) (hKeys : (keys ps).Nodup) (hKeys' : (keys qs).Nodup)
    (hSymm : ∀ p ∈ ps, ∀ q ∈ qs, R p.2 q.2 → S q.2 p.2) : Matches S qs ps where
  length := h.length.symm
  found := by
    intro q hq
    obtain ⟨v, hv, hRelated⟩ := h.exists_left hKeys (get?_of_mem hKeys' hq)
    exact ⟨v, hv, hSymm (q.1, v) (mem_of_get? hv) q hq hRelated⟩

/-- Matching goes on from one table to the next key by key. -/
theorem Matches.trans (h : Matches R ps qs) (h' : Matches S qs rs)
    (hTrans : ∀ p ∈ ps, ∀ q ∈ qs, ∀ u, R p.2 q.2 → S q.2 u → T p.2 u) : Matches T ps rs where
  length := h.length.trans h'.length
  found := by
    intro p hp
    obtain ⟨w, hw, hFirst⟩ := h.found p hp
    obtain ⟨u, hu, hSecond⟩ := h'.exists_right hw
    exact ⟨u, hu, hTrans p hp (p.1, w) (mem_of_get? hw) u hFirst hSecond⟩

theorem Matches.refl (hKeys : (keys ps).Nodup) (h : ∀ p ∈ ps, R p.2 p.2) : Matches R ps ps where
  length := rfl
  found := fun p hp => ⟨p.2, get?_of_mem hKeys hp, h p hp⟩

end Table

namespace Expr

/-- Every table of properties is a map: all its keys are distinct, also in
children and in properties of properties. -/
inductive Mapped : Expr → Prop where
  | intro {e : Expr} (hKeys : (Table.keys e.properties).Nodup) (hTail : ∀ c ∈ e.tail, Mapped c)
      (hProperties : ∀ p ∈ e.properties, Mapped p.2) : Mapped e

namespace Mapped
variable {e v : Expr}

/-- No property is set twice in one place. -/
theorem keys (he : e.Mapped) : (Table.keys e.properties).Nodup := by
  cases he with
  | intro hKeys => exact hKeys

theorem child (he : e.Mapped) {c : Expr} (hc : c ∈ e.tail) : c.Mapped := by
  cases he with
  | intro _ hTail => exact hTail c hc

theorem property (he : e.Mapped) {p : String × Expr} (hp : p ∈ e.properties) : p.2.Mapped := by
  cases he with
  | intro _ _ hProperties => exact hProperties p hp

theorem node (a : Atom) {es : List Expr} (hes : ∀ e ∈ es, e.Mapped) : (Expr.node a es).Mapped :=
  .intro List.nodup_nil hes (by simp [Expr.node])

/-- A property that is set again replaces the old value, so keys stay distinct. -/
theorem setProperty (he : e.Mapped) (hv : v.Mapped) (key : String) :
    (e.setProperty key v).Mapped := by
  refine .intro (Table.nodup_keys_put he.keys key v) (fun c hc => he.child hc) fun p hp => ?_
  rcases Table.mem_put hp with rfl | hOld
  · exact hv
  · exact he.property hOld

end Mapped

variable {a b c : Expr}

/-- Children are compared in order, and there are as many on both sides. -/
theorem equalAll_iff {es fs : List Expr} (hLength : es.length = fs.length) :
    equalAll es fs = true ↔ List.Forall₂ (fun e f => e.equal f = true) es fs := by
  induction es generalizing fs with
  | nil =>
      cases fs with
      | nil => simp [equalAll]
      | cons f fs => cases hLength
  | cons e es ih =>
      cases fs with
      | nil => cases hLength
      | cons f fs =>
          rw [equalAll, Bool.and_eq_true, List.forall₂_cons, ih (Nat.succ.inj hLength)]

/-- Properties are compared by key, in whatever order they were set. -/
theorem equalProperties_iff {ps qs : List (String × Expr)} :
    equalProperties ps qs = true ↔
      ∀ p ∈ ps, ∃ w, Table.get? qs p.1 = some w ∧ p.2.equal w = true := by
  induction ps with
  | nil => simp [equalProperties]
  | cons p ps ih =>
      have hFirst : equalProperty p qs = true ↔
          ∃ w, Table.get? qs p.1 = some w ∧ p.2.equal w = true := by
        obtain ⟨k, v⟩ := p
        unfold equalProperty
        cases Table.get? qs k with
        | none => simp
        | some w => simp
      rw [equalProperties, Bool.and_eq_true, List.forall_mem_cons, hFirst, ih]

/-- Equality in terms of the parts of the two expressions. -/
theorem equal_iff : a.equal b = true ↔
    Atom.Equal a.head b.head ∧ List.Forall₂ (fun e f => e.equal f = true) a.tail b.tail ∧
      (a.isPlotObject = true ∨ b.isPlotObject = true →
        Table.Matches (fun v w => v.equal w = true) a.properties b.properties) := by
  obtain ⟨head, es, ps⟩ := a
  have hMatches : (ps.length == b.properties.length && equalProperties ps b.properties) = true ↔
      Table.Matches (fun v w => v.equal w = true) ps b.properties := by
    rw [Bool.and_eq_true, beq_iff_eq, equalProperties_iff]
    exact ⟨fun ⟨hLength, hFound⟩ => ⟨hLength, hFound⟩, fun h => ⟨h.length, h.found⟩⟩
  simp only [equal, Bool.and_eq_true, beq_iff_eq, Atom.equal_iff]
  constructor
  · rintro ⟨⟨⟨hHead, hLength⟩, hProperties⟩, hTail⟩
    refine ⟨hHead, (equalAll_iff hLength).mp hTail, fun hObject => hMatches.mp ?_⟩
    rw [if_pos (by simpa using hObject)] at hProperties
    exact hProperties
  · rintro ⟨hHead, hTail, hProperties⟩
    refine ⟨⟨⟨hHead, hTail.length_eq⟩, ?_⟩, (equalAll_iff hTail.length_eq).mpr hTail⟩
    split
    · next hObject => exact hMatches.mpr (hProperties (by simpa using hObject))
    · rfl

/-- Equal expressions say the same about being a plot object. -/
theorem heads_of_equal (h : a.equal b = true) :
    a.headString? = b.headString? ∧ a.isPlot = b.isPlot := by
  have hHead := (equal_iff.mp h).1
  unfold headString? isPlot
  generalize a.head = x at hHead ⊢
  generalize b.head = y at hHead ⊢
  cases hHead <;> exact ⟨rfl, rfl⟩

/-- Equal expressions are plot objects together: as soon as one of them is, the
names of their shapes are compared. -/
theorem isPlotObject_eq_of_equal (ha : a.Mapped) (h : a.equal b = true) :
    a.isPlotObject = b.isPlotObject := by
  by_cases hObject : a.isPlotObject = true ∨ b.isPlotObject = true
  · have hMatches := (equal_iff.mp h).2.2 hObject
    have hName : a.objectName? = b.objectName? := by
      unfold objectName? property?
      cases hLeft : Table.get? a.properties objectNameKey with
      | some v =>
          obtain ⟨w, hRight, hEqual⟩ := hMatches.exists_right hLeft
          rw [hRight]
          exact (heads_of_equal hEqual).1
      | none =>
          cases hRight : Table.get? b.properties objectNameKey with
          | none => rfl
          | some w =>
              obtain ⟨v, hFound, _⟩ := hMatches.exists_left ha.keys hRight
              cases hLeft.symm.trans hFound
    unfold isPlotObject
    rw [hName, (heads_of_equal h).2]
  · simp only [not_or, Bool.not_eq_true] at hObject
    rw [hObject.1, hObject.2]

/-- The induction is on the first expression, through its children and its
properties alike. -/
theorem equal_symm (ha : a.Mapped) (hb : b.Mapped) (h : a.equal b = true) : b.equal a = true := by
  induction a using Expr.induct generalizing b with
  | node a ihTail ihProperties =>
      obtain ⟨hHead, hTail, hProperties⟩ := equal_iff.mp h
      refine equal_iff.mpr ⟨hHead.symm, ?_, fun hObject => ?_⟩
      · exact forall₂_symm_of_mem hTail fun e he f hf hEqual =>
          ihTail e he (ha.child he) (hb.child hf) hEqual
      · refine (hProperties hObject.symm).symm ha.keys hb.keys fun p hp q hq hEqual => ?_
        exact ihProperties p hp (ha.property hp) (hb.property hq) hEqual

/-- The middle expression is a plot object as soon as one of the outer ones is, so
no comparison of properties is left out. -/
theorem equal_trans (ha : a.Mapped) (hb : b.Mapped) (hab : a.equal b = true)
    (hbc : b.equal c = true) : a.equal c = true := by
  induction a using Expr.induct generalizing b c with
  | node a ihTail ihProperties =>
      obtain ⟨hHead, hTail, hProperties⟩ := equal_iff.mp hab
      obtain ⟨hHead', hTail', hProperties'⟩ := equal_iff.mp hbc
      refine equal_iff.mpr ⟨hHead.trans hHead', ?_, fun hObject => ?_⟩
      · exact forall₂_trans_of_mem hTail hTail' fun e he f hf g hef hfg =>
          ihTail e he (ha.child he) (hb.child hf) hef hfg
      · have hFirst : a.isPlotObject = b.isPlotObject := isPlotObject_eq_of_equal ha hab
        have hSecond : b.isPlotObject = c.isPlotObject := isPlotObject_eq_of_equal hb hbc
        have hMiddle : b.isPlotObject = true := by
          rcases hObject with hObject | hObject
          · rw [← hFirst, hObject]
          · rw [hSecond, hObject]
        refine (hProperties (.inr hMiddle)).trans (hProperties' (.inl hMiddle))
          fun p hp q hq u hpq hqu => ?_
        exact ihProperties p hp (ha.property hp) (hb.property hq) hpq hqu

/-- Away from undefined numbers every expression is equal to itself. -/
theorem equal_self (ha : a.Mapped) (hDefined : ∀ x ∈ a.atoms, x.isUndefined = false) :
    a.equal a = true := by
  induction a using Expr.induct with
  | node a ihTail ihProperties =>
      refine equal_iff.mpr ⟨.refl (hDefined _ a.head_mem_atoms), ?_, fun _ => ?_⟩
      · refine List.forall₂_same.mpr fun c hc => ihTail c hc (ha.child hc) fun x hx => ?_
        exact hDefined x (mem_atoms_of_mem_tail hc hx)
      · refine .refl ha.keys fun p hp => ihProperties p hp (ha.property hp) fun x hx => ?_
        exact hDefined x (mem_atoms_of_mem_properties hp hx)

/-! Copies. -/

theorem copyAll_eq_self {es : List Expr} (h : ∀ e ∈ es, e.copy = e) : copyAll es = es := by
  induction es with
  | nil => rfl
  | cons e es ih =>
      obtain ⟨he, hes⟩ := List.forall_mem_cons.mp h
      rw [copyAll, he, ih hes]

theorem copyProperties_eq_self {ps : List (String × Expr)} (h : ∀ p ∈ ps, p.2.copy = p.2) :
    copyProperties ps = ps := by
  induction ps with
  | nil => rfl
  | cons p ps ih =>
      obtain ⟨hp, hps⟩ := List.forall_mem_cons.mp h
      obtain ⟨k, v⟩ := p
      rw [copyProperties, copyProperty, show v.copy = v from hp, ih hps]

/-- A copy shares nothing with its original and is the same tree. -/
theorem copy_eq_self (e : Expr) : e.copy = e := by
  induction e using Expr.induct with
  | node e hTail hProperties =>
      obtain ⟨a, es, ps⟩ := e
      rw [copy, copyAll_eq_self hTail, copyProperties_eq_self hProperties]

/-- Equality is symmetric and transitive, and an expression without undefined
numbers equals its copies. Equal expressions are plot objects together, although
properties count for plot objects only. -/
theorem equal_equivalence :
    (∀ a b : Expr, a.Mapped → b.Mapped → (a == b) = (b == a)) ∧
    (∀ a b c : Expr, a.Mapped → b.Mapped → (a == b) = true → (b == c) = true →
      (a == c) = true) ∧
    (∀ e : Expr, e.Mapped → (∀ x ∈ e.atoms, x.isUndefined = false) → (e == e.copy) = true) ∧
    (∀ a b : Expr, (a != b) = !(a == b)) ∧
    ∀ a b : Expr, a.Mapped → (a == b) = true → a.isPlotObject = b.isPlotObject := by
  refine ⟨fun a b ha hb => ?_, fun a b c ha hb hab hbc => equal_trans ha hb hab hbc,
    fun e he hDefined => ?_, fun a b => rfl, fun a b ha h => isPlotObject_eq_of_equal ha h⟩
  · exact Bool.eq_iff_iff.mpr ⟨equal_symm ha hb, equal_symm hb ha⟩
  · rw [copy_eq_self]
    exact equal_self he hDefined

/-- One point, with its properties set in two orders. -/
theorem equal_equivalence_point :
    let e := (Expr.point 1.0 2.0).setProperty "size" (.number 0.5)
    let f := ((Expr.list [.number 1.0, .number 2.0]).setProperty "size" (.number 0.5)).setProperty
      Expr.objectNameKey (.string "point")
    (e == f) = true ∧ (f == e) = true ∧ (e == e) = true ∧ (e == e.copy) = true ∧
      e.isPlotObject = f.isPlotObject := by
  intro e f
  have hLeaf (x : Atom) : (Expr.leaf x).Mapped := .node x (by simp)
  have hPair : (Expr.list [.number 1.0, .number 2.0]).Mapped :=
    .node _ (by simpa using ⟨hLeaf (.number 1.0), hLeaf (.number 2.0)⟩)
  have he : e.Mapped := (hPair.setProperty (hLeaf _) _).setProperty (hLeaf _) _
  have hf : f.Mapped := (hPair.setProperty (hLeaf _) _).setProperty (hLeaf _) _
  have hSame : (e == f) = true := by decide +kernel
  have hDefined : ∀ x ∈ e.atoms, x.isUndefined = false := by decide +kernel
  obtain ⟨hSymm, hTrans, hCopy, _, hObjects⟩ := equal_equivalence
  have hBack : (f == e) = true := (hSymm e f he hf).symm.trans hSame
  exact ⟨hSame, hBack, hTrans e f e he hf hSame hBack, hCopy e he hDefined,
    hObjects e f he hSame⟩

end Expr
end PlotLang
