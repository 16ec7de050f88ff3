import Mathlib.Data.List.Forall2
import PlotLang.Error

/-! Computations that can fail, with a state or without one: what they return,
what they keep of the state, and in which errors they can end. A promise is made
once for the parts of a computation and holds of the whole. -/
namespace PlotLang

theorem forall_mem_of_forall₂ {α β : Type} {post : β → Prop} {as : List α} {bs : List β}
    (h : List.Forall₂ (fun _ b => post b) as bs) : ∀ b ∈ bs, post b := by
  induction h with
  | nil => simp
  | cons hHead _ ih => exact List.forall_mem_cons.mpr ⟨hHead, ih⟩

/-- A traversal without a state has results if its elements have them. -/
theorem forall₂_of_mapM {α β : Type} {f : α → Except EvalError β} {as : List α} {bs : List β}
    (h : as.mapM f = .ok bs) : List.Forall₂ (fun a b => f a = .ok b) as bs := by
  induction as generalizing bs with
  | nil =>
      cases h
      exact .nil
  | cons a as ih =>
      rw [List.mapM_cons] at h
      cases hFirst : f a with
      | error e =>
          rw [hFirst] at h
          cases h
      | ok b =>
          cases hRest : as.mapM f with
          | error e =>
              rw [hFirst, hRest] at h
              cases h
          | ok bs =>
              rw [hFirst, hRest] at h
              cases h
              exact .cons hFirst (ih hRest)

/-- What all parts of a computation promise: what they keep of the state, and
the errors in which they can end. -/
structure Promise (ε σ : Type) where
  keeps : σ → Prop
  raises : ε → Prop

namespace Promise
variable {ε σ α β : Type} (P : Promise ε σ)

/-- A result that is as promised. After an error nothing is known of the state. -/
inductive Fulfils (post : α → Prop) : EStateM.Result ε σ α → Prop where
  | ok {a : α} {s : σ} (hKeeps : P.keeps s) (hPost : post a) : Fulfils post (.ok a s)
  | error {e : ε} {s : σ} (hRaises : P.raises e) : Fulfils post (.error e s)

/-- A computation that gives a result as promised wherever it starts. -/
def Meets (post : α → Prop) (x : EStateM ε σ α) : Prop :=
  ∀ s, P.keeps s → P.Fulfils post (x s)

variable {P} {post : α → Prop} {post' : β → Prop}

theorem meets_pure {a : α} (ha : post a) : P.Meets post (pure a) :=
  fun _ hs => .ok hs ha

/-- A failure is allowed if the promise names it. -/
theorem meets_throw {e : ε} (he : P.raises e) : P.Meets post (throw e) :=
  fun _ _ => .error he

/-- The second computation may rely on what the first one promises of its result. -/
theorem Meets.bind {x : EStateM ε σ α} {f : α → EStateM ε σ β} (hx : P.Meets post x)
    (hf : ∀ a, post a → P.Meets post' (f a)) : P.Meets post' (x >>= f) := by
  intro s hs
  have hFirst := hx s hs
  show P.Fulfils post' (EStateM.bind x f s)
  unfold EStateM.bind
  generalize x s = result at hFirst ⊢
  cases hFirst with
  | ok hKeeps hPost => exact hf _ hPost _ hKeeps
  | error hRaises => exact .error hRaises

/-- A computation that promises to end in no error has a result. -/
theorem Meets.exists_ok {x : EStateM ε σ α} (hx : P.Meets post x) (hNever : ∀ e, ¬P.raises e) {s : σ}
    (hs : P.keeps s) : ∃ a s', x s = .ok a s' := by
  have hResult := hx s hs
  generalize x s = result at hResult ⊢
  cases hResult with
  | ok _ _ => exact ⟨_, _, rfl⟩
  | error hRaises => exact (hNever _ hRaises).elim

/-- A traversal, with the results of the elements in their order. -/
theorem meets_mapM {R : α → β → Prop} {x : α → EStateM ε σ β} (as : List α)
    (h : ∀ a ∈ as, P.Meets (R a) (x a)) : P.Meets (List.Forall₂ R as) (as.mapM x) := by
  induction as with
  | nil => exact meets_pure .nil
  | cons a as ih =>
      rw [List.mapM_cons]
      refine (h a List.mem_cons_self).bind fun b hb => ?_
      refine (ih fun a' ha' => h a' (List.mem_cons_of_mem a ha')).bind fun bs hbs => ?_
      exact meets_pure (.cons hb hbs)

/-- Computations one after the other, of which the last one's result counts. -/
theorem meets_foldlM_last {f : α → EStateM ε σ β} (as : List α) {b : β}
    (h : ∀ a ∈ as, P.Meets post' (f a)) (hb : post' b) :
    P.Meets post' (as.foldlM (fun _ a => f a) b) := by
  induction as generalizing b with
  | nil => exact meets_pure hb
  | cons a as ih =>
      rw [List.foldlM_cons]
      refine (h a List.mem_cons_self).bind fun b' hb' => ?_
      exact ih (fun a' ha' => h a' (List.mem_cons_of_mem a ha')) hb'

end Promise

/-- A computation without a state that ends only in errors of a kind. -/
def Raises {α : Type} (raises : EvalError → Prop) (x : Except EvalError α) : Prop :=
  ∀ e, x = .error e → raises e

section Raises
variable {α β : Type} {raises : EvalError → Prop}

theorem raises_ok (a : α) : Raises raises (.ok a) := by
  intro e h
  cases h

theorem raises_error {e : EvalError} (he : raises e) :
    Raises raises (.error e : Except EvalError α) := by
  intro e' h
  cases h
  exact he

/-- A branch does not matter if both sides keep to the allowed errors. -/
theorem raises_ite {c : Prop} [Decidable c] {x y : Except EvalError α} (hx : Raises raises x)
    (hy : Raises raises y) : Raises raises (if c then x else y) := by
  split
  · exact hx
  · exact hy

/-- Errors of a composed computation come from one of its parts. -/
theorem Raises.bind {x : Except EvalError α} {f : α → Except EvalError β} (hx : Raises raises x)
    (hf : ∀ a, x = .ok a → Raises raises (f a)) : Raises raises (x >>= f) := by
  intro e h
  cases x with
  | ok a => exact hf a rfl e h
  | error e' =>
      cases h
      exact hx e rfl

theorem Raises.map {x : Except EvalError α} (hx : Raises raises x) (f : α → β) :
    Raises raises (f <$> x) :=
  hx.bind fun a _ => raises_ok (f a)

/-- Errors of a traversal come from its elements. -/
theorem raises_mapM {f : α → Except EvalError β} (hf : ∀ a, Raises raises (f a)) (as : List α) :
    Raises raises (as.mapM f) := by
  induction as with
  | nil => exact raises_ok []
  | cons a as ih =>
      rw [List.mapM_cons]
      exact (hf a).bind fun b _ => ih.bind fun bs _ => raises_ok (b :: bs)

theorem raises_foldlM {f : β → α → Except EvalError β} (hf : ∀ b a, Raises raises (f b a))
    (as : List α) (b : β) : Raises raises (as.foldlM f b) := by
  induction as generalizing b with
  | nil => exact raises_ok b
  | cons a as ih =>
      rw [List.foldlM_cons]
      exact (hf b a).bind fun b' _ => ih b'

end Raises
end PlotLang
