import Mathlib.Order.Bounds.Basic
import Mathlib.Order.OrderDual
import PlotLang.Plot.Extent
import PlotLang.Proofs.FloatOrder
import PlotLang.Scalar

/-! Least and greatest values of a list. Data points and samples are gone through
in different orders, and of equal values different ones win. All that is used of
values is where they rank, and a value may have no rank: then nothing precedes it.
Both a linear order and the numbers of programs are of this kind. -/
namespace PlotLang

variable {α κ : Type} [LinearOrder κ]

/-- Strict order by rank. -/
def Precedes (rank : α → Option κ) (a b : α) : Prop :=
  ∃ k l, rank a = some k ∧ rank b = some l ∧ k < l

/-- A choice between two values. Nothing precedes the chosen one that does not
precede the first as well, and the second does not precede it. -/
structure Picks (rank : α → Option κ) (pick : α → α → α) : Prop where
  one : ∀ m x, pick m x = m ∨ pick m x = x
  keeps : ∀ m x z, ¬Precedes rank z m → ¬Precedes rank z (pick m x)
  right : ∀ m x, ¬Precedes rank x (pick m x)

section Picks
variable {rank : α → Option κ} {pick : α → α → α}

theorem Precedes.irrefl (a : α) : ¬Precedes rank a a := by
  rintro ⟨k, l, hk, hl, hLess⟩
  cases hk.symm.trans hl
  exact lt_irrefl k hLess

variable (hPick : Picks rank pick)
include hPick

/-- What was not beaten at some time is not beaten by a later choice. -/
theorem Picks.foldl_keeps {z first : α} (rest : List α) (h : ¬Precedes rank z first) :
    ¬Precedes rank z (rest.foldl pick first) := by
  induction rest generalizing first with
  | nil => exact h
  | cons y rest ih => exact ih (hPick.keeps first y z h)

/-- The value that is left after all choices is one of the list, and none of the
list precedes it. The induction is on the values still to come. -/
theorem Picks.foldl (first : α) (rest : List α) :
    rest.foldl pick first ∈ first :: rest ∧
      ∀ x ∈ first :: rest, ¬Precedes rank x (rest.foldl pick first) := by
  induction rest generalizing first with
  | nil =>
      refine ⟨List.mem_cons_self, fun x hx => ?_⟩
      rw [List.mem_singleton.mp hx]
      exact Precedes.irrefl first
  | cons y rest ih =>
      obtain ⟨hMember, hBefore⟩ := ih (pick first y)
      rw [List.foldl_cons]
      constructor
      · rcases List.mem_cons.mp hMember with hSame | hLater
        · rw [hSame]
          rcases hPick.one first y with hFirst | hSecond
          · rw [hFirst]
            exact List.mem_cons_self
          · rw [hSecond]
            exact List.mem_cons_of_mem _ List.mem_cons_self
        · exact List.mem_cons_of_mem _ (List.mem_cons_of_mem _ hLater)
      · intro x hx
        rcases List.mem_cons.mp hx with rfl | hx
        · exact hPick.foldl_keeps rest (hPick.keeps x y x (Precedes.irrefl x))
        · rcases List.mem_cons.mp hx with rfl | hx
          · exact hPick.foldl_keeps rest (hPick.right first x)
          · exact hBefore x (List.mem_cons_of_mem _ hx)

end Picks

/-- The choice of what strictly precedes, by whatever test compares ranks. -/
theorem picks_of_precedes {rank : α → Option κ} {c : α → α → Prop} [∀ m x, Decidable (c m x)]
    (hTest : ∀ m x, c m x ↔ Precedes rank x m) : Picks rank fun m x => if c m x then x else m := by
  constructor
  · intro m x
    split
    · exact .inr rfl
    · exact .inl rfl
  · intro m x z hFirst hChosen
    split at hChosen
    · next h =>
        -- what precedes the second precedes the first by transitivity
        obtain ⟨k, l, hx, hm, hLess⟩ := (hTest m x).mp h
        obtain ⟨j, k', hz, hx', hLess'⟩ := hChosen
        cases hx.symm.trans hx'
        exact hFirst ⟨j, l, hz, hm, hLess'.trans hLess⟩
    · exact hFirst hChosen
  · intro m x
    split
    · exact Precedes.irrefl x
    · next h => exact fun hChosen => h ((hTest m x).mpr hChosen)

namespace Plot.Extent
variable [BEq α] {rank : α → Option κ} {precedes : α → α → Bool}
  (hSelf : ∀ a, (a != a) = true ↔ rank a = none)
  (hLe : ∀ a b, precedes a b = true ↔ ∃ k l, rank a = some k ∧ rank b = some l ∧ k ≤ l)
include hSelf hLe

/-- A value without rank is chosen and then kept, and of values with a rank the
one that comes first, the later of equals. -/
theorem picks_later : Picks rank (later precedes) := by
  constructor <;> grind [later, Precedes]

/-- As before, with the earlier of equals. -/
theorem picks_earlier : Picks rank (earlier precedes) := by
  constructor
  · grind [earlier]
  · -- the first value is dropped only if it has a rank, and then the second is below it
    intro m x z
    cases hFirst : rank m <;> grind [earlier, Precedes]
  · grind [earlier, Precedes]

/-- Every value is compared, though not in the order of the list. -/
theorem extreme_spec (first : α) (values : List α) :
    extreme precedes first values ∈ first :: values ∧
      ∀ x ∈ first :: values, ¬Precedes rank x (extreme precedes first values) := by
  have hLater := picks_later hSelf hLe
  have hEarlier := picks_earlier hSelf hLe
  obtain ⟨hPaired, hBefore⟩ := hLater.foldl first (firsts values ++ first :: seconds values)
  obtain ⟨hMember, hAll⟩ := hEarlier.foldl
    ((firsts values ++ first :: seconds values).foldl (later precedes) first) (unpaired values)
  constructor
  · rcases List.mem_cons.mp hMember with hSame | hUnpaired
    · rw [extreme, hSame]
      simp only [List.mem_cons, List.mem_append] at hPaired ⊢
      rw [mem_iff_paired]
      tauto
    · exact List.mem_cons_of_mem _ (mem_iff_paired.mpr (.inr (.inr hUnpaired)))
  · intro x hx
    have hPlace : x ∈ first :: (firsts values ++ first :: seconds values) ∨ x ∈ unpaired values := by
      rw [List.mem_cons, mem_iff_paired] at hx
      simp only [List.mem_cons, List.mem_append]
      tauto
    rcases hPlace with hPaired | hUnpaired
    · exact hEarlier.foldl_keeps (unpaired values) (hBefore x hPaired)
    · exact hAll x (List.mem_cons_of_mem _ hUnpaired)

end Plot.Extent

/-! The greatest value is the least one in the order turned round. -/

/-- Ranks in the order turned round. -/
def dual (rank : α → Option κ) (a : α) : Option κᵒᵈ := (rank a).map OrderDual.toDual

theorem precedes_dual_iff {rank : α → Option κ} {a b : α} :
    Precedes (dual rank) a b ↔ Precedes rank b a := by
  simp only [Precedes, dual, Option.map_eq_some_iff]
  constructor
  · rintro ⟨_, _, ⟨k, hk, rfl⟩, ⟨l, hl, rfl⟩, hLess⟩
    exact ⟨l, k, hl, hk, OrderDual.toDual_lt_toDual.mp hLess⟩
  · rintro ⟨l, k, hl, hk, hLess⟩
    exact ⟨_, _, ⟨k, hk, rfl⟩, ⟨l, hl, rfl⟩, OrderDual.toDual_lt_toDual.mpr hLess⟩

/-! In a linear order every value has a rank, itself. -/

section Ordered
variable [LinearOrder α] {m x : α}

theorem precedes_some_iff : Precedes some x m ↔ x < m := by simp [Precedes]

/-- In a linear order, being preceded by nothing is being the least. -/
theorem isLeast_of_precedes {values : List α}
    (h : m ∈ values ∧ ∀ x ∈ values, ¬Precedes some x m) : IsLeast {x | x ∈ values} m :=
  ⟨h.1, fun x hx => not_lt.mp fun hLess => h.2 x hx (precedes_some_iff.mpr hLess)⟩

/-- The same for the order turned round. -/
theorem isGreatest_of_precedes {values : List α}
    (h : m ∈ values ∧ ∀ x ∈ values, ¬Precedes (dual some) x m) :
    IsGreatest {x | x ∈ values} m := by
  simp only [precedes_dual_iff, precedes_some_iff, not_lt] at h
  exact h

/-- Data points are compared strictly, in the order in which they are given. -/
theorem firstLeast_isLeast [DecidableLT α] (first : α) (rest : List α) :
    IsLeast {x | x ∈ first :: rest} (firstLeast first rest) :=
  isLeast_of_precedes <| (picks_of_precedes fun _ _ => precedes_some_iff.symm).foldl first rest

theorem firstGreatest_isGreatest [DecidableLT α] (first : α) (rest : List α) :
    IsGreatest {x | x ∈ first :: rest} (firstGreatest first rest) :=
  isGreatest_of_precedes <| Picks.foldl (picks_of_precedes fun _ _ =>
    (precedes_dual_iff.trans precedes_some_iff).symm) first rest

namespace Plot.Extent
variable [BEq α] [LawfulBEq α] [DecidableLE α]

/-- Samples are compared in pairs, and no pair is left out. -/
theorem least_isLeast (first : α) (values : List α) :
    IsLeast {x | x ∈ first :: values} (least first values) :=
  isLeast_of_precedes <| extreme_spec (by simp) (by simp) first values

theorem greatest_isGreatest (first : α) (values : List α) :
    IsGreatest {x | x ∈ first :: values} (greatest first values) :=
  isGreatest_of_precedes <| extreme_spec (by simp [dual]) (by simp [dual]) first values

end Plot.Extent
end Ordered

/-! The numbers of programs. An undefined number has no rank, so it is among the
least and the greatest values of every list that it is in. -/

/-- A number of a list that no number of the list is below. -/
def LeastOf (m : Float) (values : List Float) : Prop :=
  m ∈ values ∧ ∀ x ∈ values, ¬x < m

/-- A number of a list that no number of the list is above. -/
def GreatestOf (m : Float) (values : List Float) : Prop :=
  m ∈ values ∧ ∀ x ∈ values, ¬m < x

section Numbers
variable {m x : Float}

theorem precedes_floatRank_iff : Precedes floatRank x m ↔ x < m := (float_lt_iff x m).symm

theorem leastOf_iff {values : List Float} :
    LeastOf m values ↔ m ∈ values ∧ ∀ x ∈ values, ¬Precedes floatRank x m := by
  simp only [LeastOf, precedes_floatRank_iff]

theorem greatestOf_iff {values : List Float} :
    GreatestOf m values ↔ m ∈ values ∧ ∀ x ∈ values, ¬Precedes (dual floatRank) x m := by
  simp only [GreatestOf, precedes_dual_iff, precedes_floatRank_iff]

/-- An undefined number is above and below nothing, so it is kept if it comes
first and passed over if not. -/
theorem leastOf_firstLeast (first : Float) (rest : List Float) :
    LeastOf (firstLeast first rest) (first :: rest) :=
  leastOf_iff.mpr <| (picks_of_precedes fun _ _ => precedes_floatRank_iff.symm).foldl first rest

theorem greatestOf_firstGreatest (first : Float) (rest : List Float) :
    GreatestOf (firstGreatest first rest) (first :: rest) :=
  greatestOf_iff.mpr <| Picks.foldl (picks_of_precedes fun _ _ =>
    (precedes_dual_iff.trans precedes_floatRank_iff).symm) first rest

/-- The test for numbers that differ from themselves finds those without a rank. -/
theorem bne_self_iff_floatRank : (x != x) = true ↔ floatRank x = none := by
  have hEqual := float_beq_iff x x
  cases hRank : floatRank x <;> simp_all [bne]

namespace Plot.Extent

/-- Of the samples of a curve an undefined one is always kept. -/
theorem leastOf_least (first : Float) (values : List Float) :
    LeastOf (least first values) (first :: values) :=
  leastOf_iff.mpr <| extreme_spec (fun _ => bne_self_iff_floatRank)
    (fun a b => decide_eq_true_iff.trans (float_le_iff a b)) first values

theorem greatestOf_greatest (first : Float) (values : List Float) :
    GreatestOf (greatest first values) (first :: values) := by
  refine greatestOf_iff.mpr <| extreme_spec (fun a => ?_) (fun a b => ?_) first values
  · rw [bne_self_iff_floatRank, dual, Option.map_eq_none_iff]
  · rw [decide_eq_true_iff, float_le_iff]
    simp only [dual, Option.map_eq_some_iff]
    constructor
    · rintro ⟨k, l, hk, hl, hLe⟩
      exact ⟨_, _, ⟨l, hl, rfl⟩, ⟨k, hk, rfl⟩, OrderDual.toDual_le_toDual.mpr hLe⟩
    · rintro ⟨_, _, ⟨l, hl, rfl⟩, ⟨k, hk, rfl⟩, hLe⟩
      exact ⟨k, l, hk, hl, OrderDual.toDual_le_toDual.mp hLe⟩

end Plot.Extent
end Numbers
end PlotLang
