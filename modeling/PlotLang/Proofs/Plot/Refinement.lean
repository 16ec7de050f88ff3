import PlotLang.Proofs.Plot.Box

/-! How a curve is refined, over exact fractions. The samples are on the curve,
from left to right and from end to end. A pass keeps the samples it is given and
adds the middles of the segments at reported vertices and nothing else. The
function is called once for each sample; if a call fails it is the last one, and
its error is the result. -/
namespace PlotLang.Plot.Curve

/-! The calls of a function. -/

section Calls
variable {ε α β : Type}

/-- The function, with a record of the places at which it was called. -/
def recorded (f : ℚ → Except ε ℚ) (x : ℚ) : EStateM ε (List ℚ) ℚ := fun calls =>
  match f x with
  | .ok y => .ok y (calls ++ [x])
  | .error e => .error e (calls ++ [x])

/-- What comes of a computation that calls the function: a result that fits the
calls, which all have a value; or the error of the last call, at a place where a
call was due. -/
inductive Called (f : ℚ → Except ε ℚ) (due : ℚ → Prop) (post : List ℚ → α → Prop)
    (before : List ℚ) : EStateM.Result ε (List ℚ) α → Prop where
  | ok {calls : List ℚ} {a : α} (hCalls : ∀ x ∈ calls, ∃ y, f x = .ok y) (hPost : post calls a) :
      Called f due post before (.ok a (before ++ calls))
  | error {calls : List ℚ} {x : ℚ} {e : ε} (hCalls : ∀ x ∈ calls, ∃ y, f x = .ok y) (hDue : due x)
      (hLast : f x = .error e) : Called f due post before (.error e (before ++ (calls ++ [x])))

/-- The computation calls the function, whatever was called before. -/
def Calls (f : ℚ → Except ε ℚ) (due : ℚ → Prop) (post : List ℚ → α → Prop)
    (c : EStateM ε (List ℚ) α) : Prop :=
  ∀ before, Called f due post before (c before)

variable {f : ℚ → Except ε ℚ} {due : ℚ → Prop} {post : List ℚ → α → Prop}
  {post' : List ℚ → β → Prop}

/-- Without a call nothing can fail. -/
theorem calls_pure {a : α} (h : post [] a) : Calls f due post (pure a) := by
  intro before
  have hResult : Called f due post before (.ok a (before ++ [])) := .ok (by simp) h
  rwa [List.append_nil] at hResult

/-- Calls of the second part come after those of the first. -/
theorem Calls.bind {c : EStateM ε (List ℚ) α} {k : α → EStateM ε (List ℚ) β}
    (hc : Calls f due post c)
    (hk : ∀ calls a, post calls a → Calls f due (fun later b => post' (calls ++ later) b) (k a)) :
    Calls f due post' (c >>= k) := by
  intro before
  have hFirst := hc before
  show Called f due post' before (EStateM.bind c k before)
  unfold EStateM.bind
  generalize c before = result at hFirst ⊢
  cases hFirst with
  | error hCalls hDue hLast => exact .error hCalls hDue hLast
  | @ok calls a hCalls hPost =>
      have hSecond := hk calls a hPost (before ++ calls)
      dsimp only
      generalize k a (before ++ calls) = result at hSecond ⊢
      cases hSecond with
      | ok hLater hPost' =>
          rw [List.append_assoc]
          exact .ok (List.forall_mem_append.mpr ⟨hCalls, hLater⟩) hPost'
      | error hLater hDue hLast =>
          rw [List.append_assoc, ← List.append_assoc calls]
          exact .error (List.forall_mem_append.mpr ⟨hCalls, hLater⟩) hDue hLast

/-- More calls may be allowed, and less may be said of the result. -/
theorem Calls.imp {due' : ℚ → Prop} {post' : List ℚ → α → Prop} {c : EStateM ε (List ℚ) α}
    (hc : Calls f due post c) (hDue : ∀ x, due x → due' x)
    (h : ∀ calls a, post calls a → post' calls a) : Calls f due' post' c := by
  intro before
  have hResult := hc before
  generalize c before = result at hResult ⊢
  cases hResult with
  | ok hCalls hPost => exact .ok hCalls (h _ _ hPost)
  | error hCalls hLate hLast => exact .error hCalls (hDue _ hLate) hLast

/-- A call of the function is recorded, whether it fails or not. -/
theorem calls_recorded (f : ℚ → Except ε ℚ) {x : ℚ} (hDue : due x) :
    Calls f due (fun calls y => calls = [x] ∧ f x = .ok y) (recorded f x) := by
  intro before
  unfold recorded
  split
  · next y hCall => exact .ok (by simp [hCall]) ⟨rfl, hCall⟩
  · next e hCall =>
      rw [← List.nil_append [x]]
      exact .error (by simp) hDue hCall

/-- The results of a traversal, and the calls of all its elements in turn. -/
inductive Traversal (R : α → List ℚ → β → Prop) : List α → List ℚ → List β → Prop where
  | nil : Traversal R [] [] []
  | cons {a : α} {as : List α} {calls later : List ℚ} {b : β} {bs : List β} (hFirst : R a calls b)
      (hRest : Traversal R as later bs) : Traversal R (a :: as) (calls ++ later) (b :: bs)

/-- A traversal makes the calls of its elements from left to right. -/
theorem calls_mapM {R : α → List ℚ → β → Prop} {c : α → EStateM ε (List ℚ) β} (as : List α)
    (h : ∀ a ∈ as, Calls f due (R a) (c a)) : Calls f due (Traversal R as) (as.mapM c) := by
  induction as with
  | nil => exact calls_pure .nil
  | cons a as ih =>
      obtain ⟨ha, has⟩ := List.forall_mem_cons.mp h
      rw [List.mapM_cons]
      refine ha.bind fun calls b hFirst => (ih has).bind fun later bs hRest => calls_pure ?_
      rw [List.append_nil]
      exact .cons hFirst hRest

/-- Taking a sample calls the function once, at its place. -/
theorem calls_sampleAt (f : ℚ → Except ε ℚ) {x : ℚ} (hDue : due x) :
    Calls f due (fun calls p => calls = [x] ∧ p.x = x ∧ f p.x = .ok p.y)
      (sampleAt (recorded f) x) := by
  refine (calls_recorded f hDue).bind ?_
  rintro _ y ⟨rfl, hValue⟩
  exact calls_pure ⟨rfl, rfl, hValue⟩

/-- The places of a traversal are the calls that it makes. -/
theorem Traversal.samples {xs calls : List ℚ} {ps : List (Point ℚ)}
    (h : Traversal (fun x calls p => calls = [x] ∧ p.x = x ∧ f p.x = .ok p.y) xs calls ps) :
    calls = xs ∧ ps.map Point.x = xs ∧ ∀ p ∈ ps, f p.x = .ok p.y := by
  induction h with
  | nil => simp
  | cons hFirst _ ih =>
      obtain ⟨rfl, hPlace, hValue⟩ := hFirst
      obtain ⟨rfl, hPlaces, hValues⟩ := ih
      exact ⟨rfl, by simp [hPlace, hPlaces], List.forall_mem_cons.mpr ⟨hValue, hValues⟩⟩

end Calls

/-! One pass. -/

section Pass
variable {ε : Type} {f : ℚ → Except ε ℚ}

def LeftOf (p q : Point ℚ) : Prop := p.x < q.x

instance : Trans LeftOf LeftOf LeftOf := ⟨lt_trans⟩

/-- Segments in a row, of which those with a flag are halved: from the samples
before and those after, with the calls for the new ones. -/
inductive Bisected (f : ℚ → Except ε ℚ) :
    List Bool → List (Point ℚ) → List (Point ℚ) → List ℚ → Prop where
  | last {flags : List Bool} {p : Point ℚ} : Bisected f flags [p] [p] []
  | kept {flags : List Bool} {p q : Point ℚ} {old new : List (Point ℚ)} {calls : List ℚ}
      (hRest : Bisected f flags (q :: old) (q :: new) calls) :
      Bisected f (false :: flags) (p :: q :: old) (p :: q :: new) calls
  | halved {flags : List Bool} {p middle q : Point ℚ} {old new : List (Point ℚ)} {calls : List ℚ}
      (hPlace : middle.x = (p.x + q.x) / 2) (hValue : f middle.x = .ok middle.y)
      (hRest : Bisected f flags (q :: old) (q :: new) calls) :
      Bisected f (true :: flags) (p :: q :: old) (p :: middle :: q :: new) (middle.x :: calls)

/-- What one segment gives besides its left end, with the calls for it. -/
inductive Split (f : ℚ → Except ε ℚ) :
    (Point ℚ × Point ℚ) × Bool → List ℚ → List (Point ℚ) → Prop where
  | kept {p q : Point ℚ} : Split f ((p, q), false) [] [q]
  | halved {p middle q : Point ℚ} (hPlace : middle.x = (p.x + q.x) / 2)
      (hValue : f middle.x = .ok middle.y) : Split f ((p, q), true) [middle.x] [middle, q]

/-- A segment that is halved calls the function once, in the middle, and any other
one not at all. -/
theorem calls_splitSegment {due : ℚ → Prop} (f : ℚ → Except ε ℚ)
    (s : (Point ℚ × Point ℚ) × Bool) (hDue : s.2 = true → due ((s.1.1.x + s.1.2.x) / 2)) :
    Calls f due (Split f s) (splitSegment (recorded f) s.2 s.1.1 s.1.2) := by
  obtain ⟨⟨p, q⟩, halve⟩ := s
  cases halve with
  | false => exact calls_pure .kept
  | true =>
      refine (calls_sampleAt f (hDue rfl)).bind ?_
      rintro _ middle ⟨rfl, hPlace, hValue⟩
      refine calls_pure ?_
      rw [← hPlace]
      exact .halved hPlace hValue

/-- Segments in a row take their flags in turn. -/
theorem bisected_of_traversal {flags : List Bool} {p : Point ℚ} {rest : List (Point ℚ)}
    {calls : List ℚ} {parts : List (List (Point ℚ))} (hFlags : rest.length ≤ flags.length)
    (h : Traversal (Split f) (((p :: rest).zip rest).zip flags) calls parts) :
    Bisected f flags (p :: rest) (p :: parts.flatten) calls := by
  induction rest generalizing p flags calls parts with
  | nil =>
      cases h
      exact .last
  | cons q rest ih =>
      cases flags with
      | nil => simp at hFlags
      | cons flag flags =>
          cases h with
          | cons hFirst hRest =>
              have hLater := ih (Nat.le_of_succ_le_succ hFlags) hRest
              cases hFirst with
              | kept => exact .kept hLater
              | halved hPlace hValue => exact .halved hPlace hValue hLater

theorem middle_strictly_between {x y : ℚ} (h : x < y) : x < (x + y) / 2 ∧ (x + y) / 2 < y := by
  constructor <;> linarith

/-- The first point of a chain is the leftmost. -/
theorem le_of_isChain {p : Point ℚ} {ps : List (Point ℚ)} (h : (p :: ps).IsChain LeftOf) :
    ∀ r ∈ p :: ps, p.x ≤ r.x := by
  have hLater : ∀ r ∈ ps, LeftOf p r := fun r hr => List.rel_of_pairwise_cons h.pairwise hr
  exact List.forall_mem_cons.mpr ⟨le_rfl, fun r hr => (hLater r hr).le⟩

namespace Bisected
variable {flags : List Bool} {old new : List (Point ℚ)} {calls : List ℚ}

/-- No sample is moved or lost. -/
theorem sublist (h : Bisected f flags old new calls) : old.Sublist new := by
  induction h with
  | last => exact .refl _
  | kept _ ih => exact ih.cons_cons _
  | halved _ _ _ ih => exact (ih.cons _).cons_cons _

/-- The last sample stays the last. -/
theorem getLast? (h : Bisected f flags old new calls) : new.getLast? = old.getLast? := by
  induction h with
  | last => rfl
  | kept _ ih => rwa [List.getLast?_cons_cons, List.getLast?_cons_cons]
  | halved _ _ _ ih =>
      rwa [List.getLast?_cons_cons, List.getLast?_cons_cons, List.getLast?_cons_cons]

/-- Every sample has the value of the function at its place. -/
theorem values (h : Bisected f flags old new calls) (hOld : ∀ p ∈ old, f p.x = .ok p.y) :
    ∀ p ∈ new, f p.x = .ok p.y := by
  induction h with
  | last => exact hOld
  | kept _ ih =>
      obtain ⟨hp, hRest⟩ := List.forall_mem_cons.mp hOld
      exact List.forall_mem_cons.mpr ⟨hp, ih hRest⟩
  | halved _ hValue _ ih =>
      obtain ⟨hp, hRest⟩ := List.forall_mem_cons.mp hOld
      exact List.forall_mem_cons.mpr ⟨hp, List.forall_mem_cons.mpr ⟨hValue, ih hRest⟩⟩

/-- A pass adds at most one sample for each segment. -/
theorem length_le (h : Bisected f flags old new calls) : new.length + 1 ≤ 2 * old.length := by
  induction h with
  | last => simp
  | kept _ ih | halved _ _ _ ih =>
      simp only [List.length_cons] at ih ⊢
      omega

/-- The new places are the old ones and those of the calls. -/
theorem perm (h : Bisected f flags old new calls) :
    (new.map Point.x).Perm (old.map Point.x ++ calls) := by
  induction h with
  | last => simp
  | kept _ ih => exact ih.cons _
  | @halved _ p middle q old new calls _ _ _ ih =>
      exact ((ih.cons middle.x).trans List.perm_middle.symm).cons p.x

/-- A middle lies between the ends of its segment. -/
theorem isChain (h : Bisected f flags old new calls)
    (hOld : old.IsChain LeftOf) : new.IsChain LeftOf := by
  induction h with
  | last => exact hOld
  | kept _ ih =>
      obtain ⟨hFirst, hRest⟩ := List.isChain_cons_cons.mp hOld
      exact List.isChain_cons_cons.mpr ⟨hFirst, ih hRest⟩
  | halved hPlace _ _ ih =>
      obtain ⟨hFirst, hRest⟩ := List.isChain_cons_cons.mp hOld
      obtain ⟨hLeft, hRight⟩ := middle_strictly_between hFirst
      rw [← hPlace] at hLeft hRight
      exact List.isChain_cons_cons.mpr ⟨hLeft, List.isChain_cons_cons.mpr ⟨hRight, ih hRest⟩⟩

/-- A new sample lies in the middle of two old neighbours. -/
theorem inserted (h : Bisected f flags old new calls) :
    ∀ r ∈ new, r ∈ old ∨ ∃ s ∈ old.zip old.tail, r.x = (s.1.x + s.2.x) / 2 := by
  have hLater {p q r : Point ℚ} {ps : List (Point ℚ)}
      (h : r ∈ q :: ps ∨ ∃ s ∈ (q :: ps).zip ps, r.x = (s.1.x + s.2.x) / 2) :
      r ∈ p :: q :: ps ∨ ∃ s ∈ (p :: q :: ps).zip (q :: ps), r.x = (s.1.x + s.2.x) / 2 :=
    h.imp (List.mem_cons_of_mem p) fun ⟨s, hs, hx⟩ => ⟨s, List.mem_cons_of_mem _ hs, hx⟩
  induction h with
  | last => exact fun r hr => .inl hr
  | kept _ ih =>
      refine List.forall_mem_cons.mpr ⟨.inl List.mem_cons_self, fun r hr => ?_⟩
      exact hLater (ih r hr)
  | halved hPlace _ _ ih =>
      refine List.forall_mem_cons.mpr ⟨.inl List.mem_cons_self, List.forall_mem_cons.mpr ⟨?_, ?_⟩⟩
      · exact .inr ⟨_, List.mem_cons_self, hPlace⟩
      · exact fun r hr => hLater (ih r hr)

/-- Between the ends of a segment lies its middle if it has the flag, and nothing
if not. The induction is on the segments: those before the one in question end
where it begins or before, and those after it begin where it ends or behind. -/
theorem between (h : Bisected f flags old new calls) (hOld : old.IsChain LeftOf) {j : Nat}
    {p q : Point ℚ} (hp : old[j]? = some p) (hq : old[j + 1]? = some q) :
    (new.map Point.x).filter (fun x => p.x < x ∧ x < q.x) =
      if flags[j]? = some true then [(p.x + q.x) / 2] else [] := by
  have hBehind {p q : Point ℚ} {ps : List (Point ℚ)} (h : (q :: ps).IsChain LeftOf) :
      ((q :: ps).map Point.x).filter (fun x => p.x < x ∧ x < q.x) = [] := by
    refine List.filter_eq_nil_iff.mpr fun x hx => ?_
    obtain ⟨r, hr, rfl⟩ := List.mem_map.mp hx
    have hNot : q.x ≤ r.x := le_of_isChain h r hr
    simpa using fun _ => hNot
  have hBefore {p q : Point ℚ} {x : ℚ} {xs : List ℚ} (h : x ≤ p.x) :
      (x :: xs).filter (fun x => p.x < x ∧ x < q.x) =
        xs.filter (fun x => p.x < x ∧ x < q.x) :=
    List.filter_cons_of_neg (by simpa using fun hx => absurd hx (not_lt.mpr h))
  induction h generalizing j with
  | last => cases j <;> simp at hq
  | kept hRest ih =>
      obtain ⟨hFirst, hChain⟩ := List.isChain_cons_cons.mp hOld
      rw [List.map_cons]
      cases j with
      | zero =>
          cases hp
          cases hq
          rw [hBefore le_rfl]
          exact hBehind (hRest.isChain hChain)
      | succ j =>
          have hStart := le_of_isChain hChain p (List.mem_of_getElem? hp)
          rw [hBefore (hFirst.le.trans hStart)]
          exact ih hChain hp hq
  | halved hPlace _ hRest ih =>
      obtain ⟨hFirst, hChain⟩ := List.isChain_cons_cons.mp hOld
      obtain ⟨hLeft, hRight⟩ := middle_strictly_between hFirst
      rw [← hPlace] at hLeft hRight
      rw [List.map_cons, List.map_cons]
      cases j with
      | zero =>
          cases hp
          cases hq
          rw [hBefore le_rfl, List.filter_cons_of_pos (by simpa using ⟨hLeft, hRight⟩),
            hBehind (hRest.isChain hChain), hPlace]
          rfl
      | succ j =>
          have hStart := le_of_isChain hChain p (List.mem_of_getElem? hp)
          rw [hBefore (hFirst.le.trans hStart), hBefore (hRight.le.trans hStart)]
          exact ih hChain hp hq

end Bisected
/-- The test reports the vertex: it is an inner one, and its flag is set. -/
def Reported (bent : List Bool) (samples : Series ℚ) (i : Nat) : Prop :=
  1 ≤ i ∧ i + 1 < samples.size ∧ bent[i - 1]? = some true

instance (bent : List Bool) (samples : Series ℚ) (i : Nat) : Decidable (Reported bent samples i) :=
  inferInstanceAs (Decidable (1 ≤ i ∧ i + 1 < samples.size ∧ bent[i - 1]? = some true))

/-- The flags that a pass uses are those of the inner vertices. A missing one
counts as straight. -/
theorem getElem?_padded (samples : Series ℚ) (bent : List Bool) {k : Nat}
    (h : k < samples.size - 2) :
    ((bent ++ List.replicate (samples.size - 2 - bent.length) false).take (samples.size - 2))[k]? =
      some (decide (Reported bent samples (k + 1))) := by
  have hInner : k + 1 + 1 < samples.size := by omega
  rw [List.getElem?_take_of_lt h]
  by_cases hFlag : k < bent.length
  · rw [List.getElem?_append_left hFlag, List.getElem?_eq_getElem hFlag]
    simp [Reported, hInner, hFlag]
  · have hMissing : bent[k]? = none := List.getElem?_eq_none (Nat.le_of_not_lt hFlag)
    have hPadding : k - bent.length < samples.size - 2 - bent.length := by omega
    rw [List.getElem?_append_right (Nat.le_of_not_lt hFlag), List.getElem?_replicate,
      if_pos hPadding]
    simp [Reported, hMissing]

/-- A segment is halved exactly if one of its ends is reported. -/
theorem getElem?_halved {samples : Series ℚ} {bent : List Bool} {j : Nat}
    (h : j + 1 < samples.size) :
    (halved samples bent)[j]? = some true ↔
      Reported bent samples j ∨ Reported bent samples (j + 1) := by
  simp only [halved]
  have hLength : ((bent ++ List.replicate (samples.size - 2 - bent.length) false).take
      (samples.size - 2)).length = samples.size - 2 := by
    simp
    omega
  have hInner (k : Nat) (hk : k < samples.size - 2) := getElem?_padded samples bent hk
  generalize (bent ++ List.replicate (samples.size - 2 - bent.length) false).take
    (samples.size - 2) = inner at hLength hInner
  have hStart : (false :: inner)[j]? = some (decide (Reported bent samples j)) := by
    cases j with
    | zero => simp [Reported]
    | succ k => exact hInner k (by omega)
  have hStop : (inner ++ [false])[j]? = some (decide (Reported bent samples (j + 1))) := by
    by_cases hj : j < inner.length
    · rw [List.getElem?_append_left hj]
      exact hInner j (hLength ▸ hj)
    · have hEnd : j = inner.length := by omega
      have hOuter : ¬ Reported bent samples (j + 1) := fun hReported => by
        have hSize := hReported.2.1
        omega
      rw [hEnd, List.getElem?_concat_length, ← hEnd, decide_eq_false hOuter]
  simp [List.getElem?_zipWith, hStart, hStop]

/-- One pass of refinement. The old samples stay; every new one is at the middle
of an old segment; between the ends of a segment there is one, at the middle, if
an end is reported, and none if not. -/
structure Pass (bent : List Bool) (old new : Series ℚ) : Prop where
  kept : old.toList.Sublist new.toList
  inserted : ∀ p ∈ new.toList, p ∈ old.toList ∨ ∃ s ∈ old.segments, p.x = (s.1.x + s.2.x) / 2
  bisected : ∀ {j : Nat} {p q : Point ℚ}, old.toList[j]? = some p → old.toList[j + 1]? = some q →
    (new.toList.map Point.x).filter (fun x => p.x < x ∧ x < q.x) =
      if Reported bent old j ∨ Reported bent old (j + 1) then [(p.x + q.x) / 2] else []
  size_le : new.size + 1 ≤ 2 * old.size

/-- The place is the middle of a segment with an end that is reported. -/
def Halves (bent : List Bool) (samples : Series ℚ) (x : ℚ) : Prop :=
  ∃ (j : Nat) (p q : Point ℚ), samples.toList[j]? = some p ∧ samples.toList[j + 1]? = some q ∧
    (Reported bent samples j ∨ Reported bent samples (j + 1)) ∧ x = (p.x + q.x) / 2

/-- A segment is halved only if one of its ends is a bent vertex. -/
theorem halves_of_mem {bent : List Bool} {samples : Series ℚ} {p q : Point ℚ}
    (h : ((p, q), true) ∈ samples.segments.zip (halved samples bent)) :
    Halves bent samples ((p.x + q.x) / 2) := by
  obtain ⟨j, hj⟩ := List.mem_iff_getElem?.mp h
  obtain ⟨hSegment, hFlag⟩ := List.getElem?_zip_eq_some.mp hj
  obtain ⟨hp, hq⟩ := List.getElem?_zip_eq_some.mp hSegment
  have hSize : j + 1 < samples.size := by
    rw [Series.size]
    exact Nat.succ_lt_succ (List.getElem?_eq_some_iff.mp hq).1
  exact ⟨j, p, q, hp, hq, (getElem?_halved hSize).mp hFlag, rfl⟩

/-- Samples of the function from one bound to the other, in increasing order. -/
structure Sampled (f : ℚ → Except ε ℚ) (a b : ℚ) (samples : Series ℚ) : Prop where
  values : ∀ p ∈ samples.toList, f p.x = .ok p.y
  increasing : (samples.toList.map Point.x).Pairwise (· < ·)
  first : samples.first.x = a
  last : samples.last.x = b

/-- Places increase as far as neighbours do, by transitivity. -/
theorem increasing_iff {ps : List (Point ℚ)} :
    (ps.map Point.x).Pairwise (· < ·) ↔ ps.IsChain LeftOf :=
  List.pairwise_map.trans List.isChain_iff_pairwise.symm

theorem getLast?_toList (samples : Series ℚ) : samples.toList.getLast? = some samples.last := by
  rw [Series.toList, List.getLast?_cons, Series.last]

/-- What a pass does to a series is what it does to its list of points. -/
theorem Bisected.pass {bent : List Bool} {old new : Series ℚ} {calls : List ℚ}
    (h : Bisected f (Curve.halved old bent) old.toList new.toList calls)
    (hOld : old.toList.IsChain LeftOf) : Pass bent old new where
  kept := h.sublist
  inserted := h.inserted
  bisected := by
    intro j p q hp hq
    have hSegment : j + 1 < old.size := by
      rw [← old.length_toList]
      exact (List.getElem?_eq_some_iff.mp hq).1
    rw [h.between hOld hp hq]
    simp only [getElem?_halved hSegment]
  size_le := by
    rw [← new.length_toList, ← old.length_toList]
    exact h.length_le

/-- A pass keeps the ends, the order and the values of the samples. -/
theorem Bisected.sampled {flags : List Bool} {old new : Series ℚ} {calls : List ℚ} {a b : ℚ}
    (h : Bisected f flags old.toList new.toList calls) (hFirst : new.first = old.first)
    (hOld : Sampled f a b old) : Sampled f a b new where
  values := h.values hOld.values
  increasing := increasing_iff.mpr (h.isChain (increasing_iff.mp hOld.increasing))
  first := hFirst ▸ hOld.first
  last := by
    have hLast : new.last = old.last := by
      simpa [getLast?_toList] using h.getLast?
    rw [hLast, hOld.last]

/-- One pass makes one call for each segment that it halves and is due to be. -/
theorem calls_refine {a b : ℚ} {samples : Series ℚ} (h : Sampled f a b samples)
    (bent : List Bool) :
    Calls f (Halves bent samples) (fun calls refined => Sampled f a b refined ∧
        Pass bent samples refined ∧
        (refined.toList.map Point.x).Perm (samples.toList.map Point.x ++ calls))
      (refine (recorded f) bent samples) := by
  refine (calls_mapM _ fun s hs => calls_splitSegment f s fun hFlag => ?_).bind
    fun calls parts hParts => calls_pure ?_
  · rw [← Prod.mk.eta (p := s), hFlag] at hs
    exact halves_of_mem hs
  have hFlags : samples.rest.length ≤ (halved samples bent).length := by
    rw [length_halved, Series.size]
    omega
  have hBisected : Bisected f (halved samples bent) samples.toList
      (Series.toList { samples with rest := parts.flatten }) calls :=
    bisected_of_traversal hFlags hParts
  rw [List.append_nil]
  exact ⟨hBisected.sampled rfl h, hBisected.pass (increasing_iff.mp h.increasing), hBisected.perm⟩

end Pass

/-! All passes. -/

section Passes
variable {ε : Type} {f : ℚ → Except ε ℚ} {a b : ℚ} {bends : Series ℚ → List Bool}

/-- Passes one after the other, each because of a vertex that the test reports. -/
inductive Refined (bends : Series ℚ → List Bool) : Nat → Series ℚ → Series ℚ → Prop where
  | stay {samples : Series ℚ} : Refined bends 0 samples samples
  | pass {n : Nat} {old new last : Series ℚ} (hBent : true ∈ bends old)
      (hPass : Pass (bends old) old new) (hLater : Refined bends n new last) :
      Refined bends (n + 1) old last

/-- Each pass at most doubles the count of segments. -/
theorem Refined.size_le {n : Nat} {samples last : Series ℚ} (h : Refined bends n samples last) :
    last.size ≤ (samples.size - 1) * 2 ^ n + 1 := by
  induction h with
  | @stay samples =>
      rw [Series.size]
      omega
  | @pass n old new last _ hPass _ ih =>
      have hSegments : new.size - 1 ≤ (old.size - 1) * 2 := by
        have hSize := hPass.size_le
        omega
      calc last.size
        _ ≤ (new.size - 1) * 2 ^ n + 1 := ih
        _ ≤ (old.size - 1) * 2 * 2 ^ n + 1 := by gcongr
        _ = (old.size - 1) * 2 ^ (n + 1) + 1 := by rw [mul_assoc, ← pow_succ']

/-- The induction is on the passes that are left. -/
theorem calls_refineWithin (n : Nat) {samples : Series ℚ} (h : Sampled f a b samples) :
    Calls f (fun x => ∃ k < n, ∃ reached, Refined bends k samples reached ∧
          Sampled f a b reached ∧ Halves (bends reached) reached x)
      (fun calls last => Sampled f a b last ∧
        (last.toList.map Point.x).Perm (samples.toList.map Point.x ++ calls) ∧
        ∃ k ≤ n, Refined bends k samples last ∧ (k = n ∨ true ∉ bends last))
      (refineWithin bends (recorded f) n samples) := by
  induction n generalizing samples with
  | zero => exact calls_pure ⟨h, by simp, 0, le_rfl, .stay, .inl rfl⟩
  | succ n ih =>
      unfold refineWithin
      dsimp only
      split
      · next hBent =>
          have hReported : true ∈ bends samples := by simpa using hBent
          refine ((calls_refine h (bends samples)).imp ?_ fun _ _ hPost => hPost).bind ?_
          · exact fun x hx => ⟨0, n.succ_pos, samples, .stay, h, hx⟩
          rintro calls refined ⟨hRefined, hPass, hPerm⟩
          refine (ih hRefined).imp ?_ ?_
          · rintro x ⟨k, hk, reached, hReached, hx⟩
            exact ⟨k + 1, Nat.succ_lt_succ hk, reached, .pass hReported hPass hReached, hx⟩
          rintro later last ⟨hLast, hLater, k, hk, hPasses, hEnd⟩
          refine ⟨hLast, ?_, k + 1, Nat.succ_le_succ hk, .pass hReported hPass hPasses, ?_⟩
          · rw [← List.append_assoc]
            exact hLater.trans (hPerm.append_right later)
          · exact hEnd.imp_left (congrArg (· + 1))
      · next hStraight =>
          have hNone : true ∉ bends samples := by simpa using hStraight
          exact calls_pure ⟨h, by simp, 0, Nat.zero_le _, .stay, .inr hNone⟩

/-- The end of a segment before the first pass. -/
def gridPlace (a b : ℚ) (i : Nat) : ℚ := a + i * ((b - a) / segments)

/-- The grid is evenly spaced from end to end. -/
theorem grid_eq (hBounds : a < b) :
    gridPoint a b 0 :: gridRest a b = (List.range (segments + 1)).map (gridPlace a b) := by
  have hPlace (i : Nat) : gridPoint a b i = gridPlace a b i := by
    rw [gridPoint_eq hBounds, add_comm]
    rfl
  have hStop : b = gridPlace a b segments := by
    simp only [gridPlace, segments, Nat.cast_ofNat]
    linarith
  have hRange : List.range (segments + 1) =
      0 :: (List.range' 1 (segments - 1) ++ [segments]) := by decide
  rw [hRange, List.map_cons, List.map_append, List.map_singleton, ← hStop, gridRest, hPlace,
    List.map_congr_left fun i _ => hPlace i]

/-- Twenty equal steps lead from one bound to the other, so the places increase. -/
theorem grid_increasing (hBounds : a < b) :
    ((List.range (segments + 1)).map (gridPlace a b)).Pairwise (· < ·) := by
  refine List.pairwise_map.mpr (List.pairwise_lt_range.imp fun {i j} hLess => ?_)
  have hStep : 0 < (b - a) / segments := by
    have hSegments : (0 : ℚ) < segments := by norm_num [segments]
    exact div_pos (sub_pos.mpr hBounds) hSegments
  have hIndex : (i : ℚ) < j := Nat.cast_lt.mpr hLess
  exact add_lt_add_right (mul_lt_mul_of_pos_right hIndex hStep) a

/-- A series at the places of the grid. -/
def IsGrid (a b : ℚ) (grid : Series ℚ) : Prop :=
  grid.toList.map Point.x = (List.range (segments + 1)).map (gridPlace a b)

/-- A sample is due at the place: it is one of the grid, or the next pass halves
a segment there. -/
def Due (f : ℚ → Except ε ℚ) (bends : Series ℚ → List Bool) (a b x : ℚ) : Prop :=
  x ∈ (List.range (segments + 1)).map (gridPlace a b) ∨
    ∃ grid, IsGrid a b grid ∧ ∃ n < passes, ∃ reached, Refined bends n grid reached ∧
      Sampled f a b reached ∧ Halves (bends reached) reached x

variable (bends) in
/-- A curve is the grid after some passes. The passes stop where no vertex is bent
or when there have been enough of them. -/
theorem calls_sample (hBounds : a < b) :
    Calls f (Due f bends a b) (fun calls samples => Sampled f a b samples ∧
        (samples.toList.map Point.x).Perm calls ∧ ∃ grid, IsGrid a b grid ∧
          ∃ n ≤ passes, Refined bends n grid samples ∧ (n = passes ∨ true ∉ bends samples))
      (sample bends (recorded f) a b) := by
  have hOnGrid : ∀ x ∈ gridPoint a b 0 :: gridRest a b, Due f bends a b x := by
    rw [grid_eq hBounds]
    exact fun x hx => .inl hx
  obtain ⟨hDue, hDueRest⟩ := List.forall_mem_cons.mp hOnGrid
  refine (calls_sampleAt f hDue).bind ?_
  rintro _ first ⟨rfl, hStart, hValue⟩
  refine (calls_mapM _ fun x hx => calls_sampleAt f (hDueRest x hx)).bind fun calls rest hRest => ?_
  obtain ⟨rfl, hPlaces, hValues⟩ := hRest.samples
  have hPoints : (Series.toList ⟨first, rest⟩).map Point.x = gridPoint a b 0 :: gridRest a b := by
    rw [Series.toList, List.map_cons, hStart, hPlaces]
  have hSampled : Sampled f a b ⟨first, rest⟩ := by
    refine ⟨List.forall_mem_cons.mpr ⟨hValue, hValues⟩, ?_, ?_, ?_⟩
    · rw [hPoints, grid_eq hBounds]
      exact grid_increasing hBounds
    · exact hStart.trans (gridPoint_zero hBounds)
    · have hLast := congrArg List.getLast? hPoints
      rw [List.getLast?_map, getLast?_toList, gridRest, ← List.cons_append,
        List.getLast?_concat] at hLast
      exact Option.some.inj hLast
  have hGrid : IsGrid a b ⟨first, rest⟩ := hPoints.trans (grid_eq hBounds)
  refine (calls_refineWithin passes hSampled).imp ?_ ?_
  · exact fun x hx => .inr ⟨_, hGrid, hx⟩
  · rintro later samples ⟨hSamples, hPerm, hPasses⟩
    rw [hPoints] at hPerm
    exact ⟨hSamples, hPerm, _, hGrid, hPasses⟩

end Passes

/-- A curve that is sampled without a fault has samples on it, from left to right
and from bound to bound. They come from an even grid in passes that keep what is
there and halve the segments at reported vertices once each, until no vertex is
reported or the passes are used up; so their count is bounded, and the function
was called once for each. Otherwise the last call, at a place where a sample was
due, has failed, and its error is the result. -/
theorem sample_refinement {ε : Type} (f : ℚ → Except ε ℚ) (bends : Series ℚ → List Bool) {a b : ℚ}
    (hBounds : a < b) :
    (∃ samples calls, sample bends (recorded f) a b [] = .ok samples calls ∧
      Sampled f a b samples ∧ samples.size ≤ segments * 2 ^ passes + 1 ∧
      (samples.toList.map Point.x).Perm calls ∧
      ∃ grid, IsGrid a b grid ∧ ∃ n ≤ passes, Refined bends n grid samples ∧
        (n = passes ∨ true ∉ bends samples)) ∨
    ∃ e calls x, sample bends (recorded f) a b [] = .error e (calls ++ [x]) ∧
      Due f bends a b x ∧ f x = .error e ∧ ∀ y ∈ calls, ∃ v, f y = .ok v := by
  have hResult := calls_sample (f := f) bends hBounds []
  generalize sample bends (recorded f) a b [] = result at hResult ⊢
  cases hResult with
  | error hCalls hDue hLast => exact .inr ⟨_, _, _, rfl, hDue, hLast, hCalls⟩
  | @ok calls samples _ hPost =>
      obtain ⟨hSampled, hPerm, grid, hGrid, n, hn, hRefined, hEnd⟩ := hPost
      refine .inl ⟨samples, calls, rfl, hSampled, ?_, hPerm, grid, hGrid, n, hn, hRefined, hEnd⟩
      have hSize : grid.size = segments + 1 := by
        simpa using congrArg List.length hGrid
      calc samples.size
        _ ≤ (grid.size - 1) * 2 ^ n + 1 := hRefined.size_le
        _ ≤ segments * 2 ^ passes + 1 := by
          rw [hSize, Nat.add_sub_cancel]
          gcongr
          exact one_le_two

/-- A parabola whose first inner vertex is reported once, and a function that
fails in the middle of the grid. -/
theorem sample_refinement_parabola :
    let bends : Series ℚ → List Bool := fun samples => if samples.size = 21 then [true] else []
    let square : ℚ → Except Unit ℚ := fun x => .ok (x * x)
    let broken : ℚ → Except Unit ℚ := fun x => if x = 1 / 2 then .error () else .ok x
    (∃ samples calls, sample bends (recorded square) 0 1 [] = .ok samples calls ∧
      samples.size = 23 ∧ Sampled square 0 1 samples ∧ ∃ grid n, Refined bends n grid samples) ∧
    ∃ calls x, sample bends (recorded broken) 0 1 [] = .error () (calls ++ [x]) ∧
      Due broken bends 0 1 x ∧ broken x = .error () ∧ ∀ y ∈ calls, ∃ v, broken y = .ok v := by
  intro bends square broken
  have hBounds : (0 : ℚ) < 1 := one_pos
  constructor
  · have hCount : (match sample bends (recorded square) 0 1 [] with
        | .ok samples _ => samples.size
        | .error _ _ => 0) = 23 := by decide +kernel
    obtain ⟨samples, calls, hSample, hSampled, _, _, grid, _, n, _, hRefined, _⟩ |
      ⟨e, calls, x, hSample, _⟩ := sample_refinement square bends hBounds
    · rw [hSample] at hCount
      exact ⟨samples, calls, hSample, hCount, hSampled, grid, n, hRefined⟩
    · rw [hSample] at hCount
      cases hCount
  · have hFault : (match sample bends (recorded broken) 0 1 [] with
        | .ok _ _ => false
        | .error _ _ => true) = true := by decide +kernel
    obtain ⟨samples, calls, hSample, _⟩ | ⟨e, calls, x, hSample, hDue, hLast, hCalls⟩ :=
      sample_refinement broken bends hBounds
    · rw [hSample] at hFault
      cases hFault
    · exact ⟨calls, x, hSample, hDue, hLast, hCalls⟩

end PlotLang.Plot.Curve
