import PlotLang.Plot.Curve
import PlotLang.Proofs.Computation

/-! Where a curve is sampled. Halving a segment adds a place between two others
and takes none away, so places have in common what middles inherit, and the two
ends of a curve stay its ends. The function may fail and may change a state. -/
namespace PlotLang.Plot

/-- Samples between two ends, all at places with a property. -/
structure Series.Spans {α : Type} (inside : α → Prop) (start stop : α) (samples : Series α) :
    Prop where
  places : ∀ p ∈ samples.toList, inside p.x
  first : samples.first.x = start
  last : samples.last.x = stop

theorem Series.map_snd_segments {α : Type} (samples : Series α) :
    samples.segments.map Prod.snd = samples.rest :=
  List.map_snd_zip (by simp [Series.size])

namespace Curve

/-- The parts of segments in a row end where the last segment ends. -/
theorem getLast?_flatten {α : Type} {ends : List α} {parts : List (List α)}
    (h : List.Forall₂ (fun q part => part.getLast? = some q) ends parts) :
    parts.flatten.getLast? = ends.getLast? := by
  induction h with
  | nil => rfl
  | @cons q part ends parts hPart _ ih =>
      rw [List.flatten_cons, List.getLast?_append, ih, hPart, List.getLast?_cons]
      cases ends.getLast? with
      | none => rfl
      | some r => rfl

variable {ε σ α : Type}

/-- There is a flag for each segment, whatever flags are given for the vertices. -/
theorem length_halved (samples : Series α) (bent : List Bool) :
    (halved samples bent).length = samples.size - 2 + 1 := by
  simp only [halved, List.length_zipWith, List.length_cons, List.length_append, List.length_take,
    List.length_replicate, List.length_nil]
  omega

/-- Every segment has its flag, so the right ends of the segments with flags are
all samples but the first. -/
theorem map_stop_zip_halved (samples : Series α) (bent : List Bool) :
    (samples.segments.zip (halved samples bent)).map (fun s => s.1.2) = samples.rest := by
  have hFlags : samples.segments.length ≤ (halved samples bent).length := by
    have hSegments := samples.length_segments
    rw [length_halved]
    omega
  rw [← Function.comp_def, ← List.map_map, List.map_fst_zip hFlags,
    samples.map_snd_segments]

section Passes
variable [NatCast α] [Add α] [Div α]
variable {P : Promise ε σ} {inside : α → Prop} {f : α → EStateM ε σ α} {start stop : α}
variable (hf : ∀ x, inside x → P.Meets (fun _ => True) (f x))
include hf

omit [NatCast α] [Add α] [Div α] in
/-- A sample stands where it was taken. -/
theorem sampleAt_meets {x : α} (hx : inside x) : P.Meets (fun p => p.x = x) (sampleAt f x) :=
  (hf x hx).bind fun _ _ => Promise.meets_pure rfl

variable (hMiddle : ∀ x y, inside x → inside y → inside ((x + y) / (2 : Nat)))
include hMiddle

/-- A segment is given back as its right end, after the middle if it is halved. -/
theorem splitSegment_meets {p q : Point α} (hp : inside p.x) (hq : inside q.x) (halve : Bool) :
    P.Meets (fun part => part.getLast? = some q ∧ ∀ r ∈ part, inside r.x)
      (splitSegment f halve p q) := by
  cases halve with
  | false => exact Promise.meets_pure ⟨rfl, by simpa using hq⟩
  | true =>
      have hPlace := hMiddle p.x q.x hp hq
      refine (sampleAt_meets hf hPlace).bind fun middle hx => Promise.meets_pure ⟨rfl, ?_⟩
      simpa [hx] using ⟨hPlace, hq⟩

/-- One pass keeps the ends and the property of the places. -/
theorem refine_meets {samples : Series α} (hSpans : samples.Spans inside start stop)
    (bent : List Bool) :
    P.Meets (Series.Spans inside start stop) (refine f bent samples) := by
  have hEnds : ∀ s ∈ samples.segments.zip (halved samples bent),
      s.1.1 ∈ samples.toList ∧ s.1.2 ∈ samples.toList := by
    rintro ⟨⟨p, q⟩, halve⟩ hs
    obtain ⟨hp, hq⟩ := List.of_mem_zip (List.of_mem_zip hs).1
    exact ⟨hp, List.mem_cons_of_mem _ hq⟩
  refine (Promise.meets_mapM (R := fun s part =>
    part.getLast? = some s.1.2 ∧ ∀ r ∈ part, inside r.x) _ fun s hs => ?_).bind
      fun parts hParts => Promise.meets_pure ?_
  · exact splitSegment_meets hf hMiddle (hSpans.places _ (hEnds s hs).1)
      (hSpans.places _ (hEnds s hs).2) s.2
  · have hLast : parts.flatten.getLast? = samples.rest.getLast? := by
      rw [← map_stop_zip_halved samples bent]
      exact getLast?_flatten (List.forall₂_map_left_iff.mpr (hParts.imp fun _ _ h => h.1))
    have hPlaces : ∀ part ∈ parts, ∀ r ∈ part, inside r.x :=
      forall_mem_of_forall₂ (hParts.imp fun _ _ h => h.2)
    refine ⟨fun r hr => ?_, hSpans.first, ?_⟩
    · rcases List.mem_cons.mp hr with rfl | hRest
      · exact hSpans.places _ List.mem_cons_self
      · obtain ⟨part, hPart, hr⟩ := List.mem_flatten.mp hRest
        exact hPlaces part hPart r hr
    · rw [← hSpans.last]
      simp only [Series.last, hLast]

/-- All passes keep what one pass keeps. The induction is on the passes left. -/
theorem refineWithin_meets (bends : Series α → List Bool) (n : Nat) {samples : Series α}
    (hSpans : samples.Spans inside start stop) :
    P.Meets (Series.Spans inside start stop) (refineWithin bends f n samples) := by
  induction n generalizing samples with
  | zero => exact Promise.meets_pure hSpans
  | succ n ih =>
      unfold refineWithin
      dsimp only
      split
      · exact (refine_meets hf hMiddle hSpans _).bind fun refined hRefined => ih hRefined
      · exact Promise.meets_pure hSpans

/-- A sampled curve spans its bounds. -/
theorem sample_meets [Sub α] [Mul α] [BEq α] (bends : Series α → List Bool) {a b : α}
    (hFirst : inside (gridPoint a b 0)) (hGrid : ∀ x ∈ gridRest a b, inside x) :
    P.Meets (Series.Spans inside (gridPoint a b 0) b) (sample bends f a b) := by
  refine (sampleAt_meets hf hFirst).bind fun first hStart => ?_
  refine (Promise.meets_mapM (gridRest a b) fun x hx =>
    sampleAt_meets hf (hGrid x hx)).bind fun rest hRest => ?_
  -- the places of the samples after the first are those of the grid
  have hPlaces : rest.map Point.x = gridRest a b := by
    have hEqual : List.Forall₂ (fun x (p : Point α) => x = p.x) (gridRest a b) rest :=
      hRest.imp fun _ _ h => h.symm
    rw [← List.forall₂_eq_eq_eq]
    exact List.forall₂_map_left_iff.mpr (hEqual.flip.imp fun _ _ h => h.symm)
  refine refineWithin_meets hf hMiddle bends passes ⟨fun p hp => ?_, hStart, ?_⟩
  · rcases List.mem_cons.mp hp with rfl | hMember
    · exact hStart ▸ hFirst
    · exact hGrid _ (hPlaces ▸ List.mem_map_of_mem hMember)
  · have hLast : (rest.map Point.x).getLast? = some b := by
      rw [hPlaces, gridRest, List.getLast?_concat]
    rw [List.getLast?_map] at hLast
    obtain ⟨p, hp, hx⟩ := Option.map_eq_some_iff.mp hLast
    simp only [Series.last, hp, Option.getD_some]
    exact hx

end Passes
end Curve
end PlotLang.Plot
