import Mathlib.Data.List.Induction
import Mathlib.Logic.Function.Basic
import PlotLang.Table

/-! Which entries a table has after a write, and tables under a map of their keys
and values. -/
namespace PlotLang.Table
variable {Key Key' Value Value' : Type} [DecidableEq Key] [DecidableEq Key']

theorem mem_of_get? {t : Table Key Value} {k : Key} {v : Value} (h : get? t k = some v) :
    (k, v) ∈ t := by
  induction t with
  | nil => cases h
  | cons entry t ih =>
      obtain ⟨j, w⟩ := entry
      rw [get?_cons] at h
      by_cases hKey : k = j
      · rw [if_pos hKey] at h
        cases h
        subst hKey
        exact List.mem_cons_self
      · rw [if_neg hKey] at h
        exact List.mem_cons_of_mem _ (ih h)

/-- With distinct keys every entry is the one that is found. -/
theorem get?_of_mem {t : Table Key Value} (hKeys : (keys t).Nodup) {p : Key × Value} (hp : p ∈ t) :
    get? t p.1 = some p.2 := by
  induction t with
  | nil => cases hp
  | cons entry t ih =>
      obtain ⟨hFirst, hRest⟩ := List.nodup_cons.mp hKeys
      rw [get?_cons]
      rcases List.mem_cons.mp hp with rfl | hLater
      · rw [if_pos rfl]
      · have hOther : p.1 ≠ entry.1 := fun hSame => hFirst (hSame ▸ List.mem_map_of_mem hLater)
        rw [if_neg hOther, ih hRest hLater]

/-- After a write a table holds the new entry and what it held before. -/
theorem mem_put {t : Table Key Value} {k : Key} {v : Value} {p : Key × Value}
    (h : p ∈ put k v t) : p = (k, v) ∨ p ∈ t := by
  induction t with
  | nil => exact .inl (List.mem_singleton.mp h)
  | cons entry t ih =>
      obtain ⟨j, w⟩ := entry
      by_cases hKey : j = k
      · rw [put, if_pos hKey, hKey] at h
        exact (List.mem_cons.mp h).imp_right (List.mem_cons_of_mem _)
      · rw [put, if_neg hKey] at h
        rcases List.mem_cons.mp h with hFirst | hRest
        · exact .inr (List.mem_cons.mpr (.inl hFirst))
        · exact (ih hRest).imp_right (List.mem_cons_of_mem _)

/-- Writing pairs one after the other brings in no entries but these. -/
theorem mem_foldl_put {pairs : List (Key × Value)} {t : Table Key Value} {p : Key × Value}
    (h : p ∈ pairs.foldl (fun t q => put q.1 q.2 t) t) : p ∈ pairs ∨ p ∈ t := by
  induction pairs generalizing t with
  | nil => exact .inr h
  | cons q pairs ih =>
      rcases ih h with hLater | hEarlier
      · exact .inl (List.mem_cons_of_mem _ hLater)
      · rcases mem_put hEarlier with rfl | hOld
        · exact .inl List.mem_cons_self
        · exact .inr hOld

/-- A key that is not there yet goes to the end. -/
theorem put_of_not_mem {t : Table Key Value} {k : Key} (h : k ∉ keys t) (v : Value) :
    put k v t = t ++ [(k, v)] := by
  induction t with
  | nil => rfl
  | cons entry t ih =>
      obtain ⟨j, w⟩ := entry
      have hOther : j ≠ k := fun hSame => h (hSame ▸ List.mem_cons_self)
      have hLater : k ∉ keys t := fun hk => h (List.mem_cons_of_mem _ hk)
      rw [put, if_neg hOther, ih hLater, List.cons_append]

/-- A key is written where it stands, or at the end if it is new. -/
theorem nodup_keys_put {t : Table Key Value} (h : (keys t).Nodup) (k : Key) (v : Value) :
    (keys (put k v t)).Nodup := by
  rw [keys_put]
  split
  · exact h
  · next hNew => exact List.nodup_append.mpr ⟨h, by simp, by grind⟩

/-- Writing entries never repeats a key. -/
theorem nodup_keys_foldl_put {pairs : List (Key × Value)} {t : Table Key Value}
    (h : (keys t).Nodup) : (keys (pairs.foldl (fun t q => put q.1 q.2 t) t)).Nodup := by
  induction pairs generalizing t with
  | nil => exact h
  | cons q pairs ih => exact ih (nodup_keys_put h q.1 q.2)

/-- Pairs with distinct keys that are not there yet are appended in their order. -/
theorem foldl_put_of_nodup {pairs : List (Key × Value)} {t : Table Key Value}
    (h : (keys t ++ keys pairs).Nodup) :
    pairs.foldl (fun t q => put q.1 q.2 t) t = t ++ pairs := by
  induction pairs generalizing t with
  | nil => exact (List.append_nil t).symm
  | cons q pairs ih =>
      have hNew : q.1 ∉ keys t := by
        intro hOld
        exact (List.nodup_append.mp h).2.2 q.1 hOld q.1 List.mem_cons_self rfl
      have hRest : (keys (t ++ [q]) ++ keys pairs).Nodup := by
        simpa [keys] using h
      rw [List.foldl_cons, put_of_not_mem hNew, ih hRest, List.append_assoc]
      rfl

/-- Entries in front win. -/
theorem get?_append (t t' : Table Key Value) (k : Key) :
    get? (t ++ t') k = (get? t k).or (get? t' k) := by
  induction t with
  | nil => rfl
  | cons entry t ih =>
      obtain ⟨j, v⟩ := entry
      by_cases hKey : k = j
      · simp [get?_cons, hKey]
      · simp [get?_cons, hKey, ih]

theorem get?_eq_none_iff {t : Table Key Value} {k : Key} : get? t k = none ↔ k ∉ keys t := by
  induction t with
  | nil => simp [keys]
  | cons entry t ih =>
      obtain ⟨j, v⟩ := entry
      by_cases hKey : k = j
      · simp [get?_cons, keys, hKey]
      · rw [get?_cons, if_neg hKey, ih]
        simp [keys, hKey]

/-- Of the pairs written under a key the last one stays. -/
theorem get?_foldl_put (pairs : List (Key × Value)) (t : Table Key Value) (k : Key) :
    get? (pairs.foldl (fun t q => put q.1 q.2 t) t) k = (get? pairs.reverse k).or (get? t k) := by
  induction pairs generalizing t with
  | nil => rfl
  | cons q pairs ih =>
      have hPut : get? (put q.1 q.2 t) k = (get? [q] k).or (get? t k) := by
        by_cases hKey : k = q.1
        · subst hKey
          rw [get?_put_self, get?, if_pos rfl, Option.some_or]
        · rw [get?_put_of_ne hKey, get?, if_neg hKey, get?_nil, Option.none_or]
      rw [List.foldl_cons, ih, List.reverse_cons, get?_append, Option.or_assoc, hPut]

/-- The keys stand in the order in which each was written for the first time. -/
theorem keys_foldl_put (pairs : List (Key × Value)) :
    keys (pairs.foldl (fun t q => put q.1 q.2 t) []) = (keys pairs).eraseDups := by
  induction pairs using List.reverseRecOn with
  | nil => rfl
  | append_singleton pairs q ih =>
      have hKeys : keys (pairs ++ [q]) = keys pairs ++ [q.1] := by simp [keys]
      rw [List.foldl_append, List.foldl_cons, List.foldl_nil, keys_put, ih, hKeys,
        List.eraseDups_append]
      by_cases hOld : q.1 ∈ keys pairs
      · rw [if_pos (List.mem_eraseDups.mpr hOld)]
        simp [List.removeAll, hOld]
      · rw [if_neg (mt List.mem_eraseDups.mp hOld)]
        simp [List.removeAll, hOld, List.eraseDups_cons]

/-- A later write to the same key takes the place of an earlier one. -/
theorem put_put_self (k : Key) (v w : Value) (t : Table Key Value) :
    put k w (put k v t) = put k w t := by
  induction t with
  | nil => simp [put]
  | cons entry t ih =>
      obtain ⟨j, u⟩ := entry
      by_cases hKey : j = k
      · simp [put, hKey]
      · simp [put, hKey, ih]

/-- Writes to two keys commute, up to the order in which new keys come in. -/
theorem put_put_perm {k k' : Key} (h : k' ≠ k) (v v' : Value) (t : Table Key Value) :
    (put k' v' (put k v t)).Perm (put k v (put k' v' t)) := by
  induction t with
  | nil =>
      simp only [put, if_neg h, if_neg (Ne.symm h)]
      exact .swap _ _ _
  | cons entry t ih =>
      obtain ⟨j, u⟩ := entry
      by_cases hFirst : j = k
      · subst hFirst
        simp [put, Ne.symm h]
      · by_cases hSecond : j = k'
        · subst hSecond
          simp [put, h]
        · simpa [put, hFirst, hSecond] using ih

/-- Keys that stay apart are found again, whatever is done to the values. -/
theorem get?_map {f : Key → Key'} (hf : Function.Injective f) (g : Value → Value')
    (t : Table Key Value) (k : Key) :
    get? (t.map fun p => (f p.1, g p.2)) (f k) = (get? t k).map g := by
  induction t with
  | nil => rfl
  | cons entry t ih =>
      obtain ⟨j, v⟩ := entry
      by_cases h : k = j
      · simp [get?_cons, h]
      · simp [get?_cons, h, hf.ne h, ih]

/-- Writing commutes with an injective renaming of keys. -/
theorem put_map {f : Key → Key'} (hf : Function.Injective f) (g : Value → Value')
    (t : Table Key Value) (k : Key) (v : Value) :
    put (f k) (g v) (t.map fun p => (f p.1, g p.2)) =
      (put k v t).map fun p => (f p.1, g p.2) := by
  induction t with
  | nil => rfl
  | cons entry t ih =>
      obtain ⟨j, w⟩ := entry
      by_cases h : j = k
      · simp [put, h]
      · simp [put, h, hf.ne h, ih]

end PlotLang.Table
