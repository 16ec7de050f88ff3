/-!
Finite tables in the order of first insertion. Writing a key that is present replaces its value
where it stands; a new key goes to the end. The properties of a value and the variables of a scope
are such tables, and their printed order is this order.
-/

namespace PlotLang

/-- A finite table from keys to values. Every operation below keeps keys distinct. -/
abbrev Table (Key Value : Type) := List (Key × Value)

namespace Table

variable {Key Value : Type} [DecidableEq Key]

def get? : Table Key Value → Key → Option Value
  | [], _ => none
  | (k', v) :: t, k => if k = k' then some v else get? t k

def has (t : Table Key Value) (k : Key) : Bool := (get? t k).isSome

def put (k : Key) (v : Value) : Table Key Value → Table Key Value
  | [] => [(k, v)]
  | (k', v') :: t => if k' = k then (k', v) :: t else (k', v') :: put k v t

def keys (t : Table Key Value) : List Key := t.map Prod.fst

@[simp] theorem get?_nil (k : Key) : get? ([] : Table Key Value) k = none := rfl

theorem get?_cons (k k' : Key) (v : Value) (t : Table Key Value) :
    get? ((k', v) :: t) k = if k = k' then some v else get? t k := rfl

/-- The value written is there. -/
@[simp] theorem get?_put_self (k : Key) (v : Value) (t : Table Key Value) :
    get? (put k v t) k = some v := by
  induction t with
  | nil => simp [put, get?_cons]
  | cons entry t ih =>
    obtain ⟨k', v'⟩ := entry
    by_cases h : k' = k
    · simp [put, get?_cons, h]
    · simp [put, get?_cons, h, Ne.symm h, ih]

/-- Every other value stays. -/
theorem get?_put_of_ne {k k' : Key} (h : k' ≠ k) (v : Value) (t : Table Key Value) :
    get? (put k v t) k' = get? t k' := by
  induction t with
  | nil => simp [put, get?_cons, h]
  | cons entry t ih =>
    obtain ⟨j, w⟩ := entry
    by_cases hj : j = k
    · subst hj
      simp [put, get?_cons, h]
    · simp [put, get?_cons, hj, ih]

/-- A present key moves nothing, and a new one goes to the end. -/
theorem keys_put (k : Key) (v : Value) (t : Table Key Value) :
    keys (put k v t) = if k ∈ keys t then keys t else keys t ++ [k] := by
  induction t with
  | nil => simp [put, keys]
  | cons entry t ih =>
    obtain ⟨j, w⟩ := entry
    by_cases hj : j = k
    · simp [put, keys, hj]
    · have hk : k ∈ keys ((j, w) :: t) ↔ k ∈ keys t := by simp [keys, Ne.symm hj]
      simp only [put, hj, if_false]
      change j :: keys (put k v t) = _
      by_cases hm : k ∈ keys t
      · rw [ih, if_pos hm, if_pos (hk.2 hm)]
        rfl
      · rw [ih, if_neg hm, if_neg (mt hk.1 hm)]
        rfl

end Table
end PlotLang
