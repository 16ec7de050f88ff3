import PlotLang.Plot.Options
import PlotLang.Proofs.Builtin

/-! What the options of a plot are. Every entry of a list of options gives a value
to a name, and the last value that a name is given counts. So the options of a
plot are read off the list, and no entry is left out or taken for another. -/
namespace PlotLang

namespace Expr
variable {e : Expr}

theorem headString?_eq_some_iff {text : String} :
    e.headString? = some text ↔ e.head = .string text := by
  cases hHead : e.head <;> simp [headString?, hHead]

theorem headNumber?_eq_some_iff {x : Float} : e.headNumber? = some x ↔ e.head = .number x := by
  cases hHead : e.head <;> simp [headNumber?, hHead]

end Expr

namespace Plot

/-- Options have distinct names. -/
theorem OptionKey.ofName?_eq_some_iff {text : String} {key : OptionKey} :
    OptionKey.ofName? text = some key ↔ text = key.name := by
  constructor
  · intro h
    have hName := List.find?_some h
    exact (beq_iff_eq.mp hName).symm
  · rintro rfl
    cases key <;> decide

namespace Options

/-- What an option is set to, if it is set: a text or a number. -/
def setting? (o : Options) : OptionKey → Option Atom
  | .title => o.title.map .string
  | .abscissaLabel => o.abscissaLabel.map .string
  | .ordinateLabel => o.ordinateLabel.map .string
  | .textScale => some (.number o.textScale)

/-- The value that an entry gives to a name, if it is one for this name. -/
def valueOf? (key : OptionKey) (entry : Expr) : Option Expr :=
  match entry.tail with
  | [name, value] => if name.headString? = some key.name then some value else none
  | _ => none

def valuesOf (key : OptionKey) (entries : List Expr) : List Expr :=
  entries.filterMap (valueOf? key)

/-- A label is a text, and nothing else is taken for one. -/
theorem labelText_eq_ok_iff {key : OptionKey} {value : Expr} {text : String} :
    labelText key value = .ok text ↔ value.head = .string text := by
  rw [← Expr.headString?_eq_some_iff, labelText]
  cases value.headString? <;> simp

/-- The scale is a positive number, so an undefined one is refused. -/
theorem scaleOf_eq_ok_iff {value : Expr} {x : Float} :
    scaleOf value = .ok x ↔ value.head = .number x ∧ 0.0 < x := by
  rw [← Expr.headNumber?_eq_some_iff, scaleOf]
  cases value.headNumber? with
  | none => simp
  | some y =>
      simp only [Option.some.injEq]
      constructor
      · intro h
        split at h
        · next hPositive =>
            cases h
            exact ⟨rfl, hPositive⟩
        · cases h
      · rintro ⟨rfl, hPositive⟩
        exact if_pos hPositive

/-- Setting an option sets it to the head of the value and leaves the others. -/
theorem setting?_of_set {o o' : Options} {key : OptionKey} {value : Expr}
    (h : o.set key value = .ok o') (other : OptionKey) :
    o'.setting? other = if other = key then some value.head else o.setting? other := by
  cases key with
  | textScale =>
      obtain ⟨x, hScale, h⟩ := bind_eq_ok h
      cases h
      cases other <;> simp [setting?, (scaleOf_eq_ok_iff.mp hScale).1]
  | _ =>
      obtain ⟨text, hText, h⟩ := bind_eq_ok h
      cases h
      cases other <;> simp [setting?, labelText_eq_ok_iff.mp hText]

/-- Setting any option keeps the scale of texts positive. -/
theorem textScale_pos_of_set {o o' : Options} {key : OptionKey} {value : Expr}
    (h : o.set key value = .ok o') (hScale : 0.0 < o.textScale) : 0.0 < o'.textScale := by
  cases key with
  | textScale =>
      obtain ⟨x, hx, h⟩ := bind_eq_ok h
      cases h
      exact (scaleOf_eq_ok_iff.mp hx).2
  | _ =>
      obtain ⟨text, _, h⟩ := bind_eq_ok h
      cases h
      exact hScale

/-- An entry that is accepted is for exactly one option. -/
theorem exists_of_addEntry {o o' : Options} {entry : Expr} (h : o.addEntry entry = .ok o') :
    ∃ key value, (∀ other, valueOf? other entry = if other = key then some value else none) ∧
      o.set key value = .ok o' := by
  unfold addEntry at h
  split at h
  · next name value _ hTail =>
      cases hText : name.headString? with
      | none => simp [hText] at h
      | some text =>
          cases hKey : OptionKey.ofName? text with
          | none => simp [hText, hKey] at h
          | some key =>
              refine ⟨key, value, fun other => ?_, by simpa [hText, hKey] using h⟩
              rw [OptionKey.ofName?_eq_some_iff] at hKey
              have hNames : key.name = other.name ↔ other = key := by
                cases key <;> cases other <;> decide
              simp [valueOf?, hTail, hText, hKey, hNames]
  · cases h

/-- The last value of a name counts. The induction is on the entries still to be
added. -/
theorem setting?_of_foldlM {entries : List Expr} {o o' : Options}
    (h : entries.foldlM addEntry o = .ok o') (key : OptionKey) :
    o'.setting? key = ((valuesOf key entries).getLast?.map Expr.head).or (o.setting? key) := by
  induction entries generalizing o with
  | nil =>
      cases h
      rfl
  | cons entry entries ih =>
      rw [List.foldlM_cons] at h
      obtain ⟨o₁, hFirst, hRest⟩ := bind_eq_ok h
      obtain ⟨key', value, hValue, hSet⟩ := exists_of_addEntry hFirst
      have hValues : valuesOf key (entry :: entries) =
          if key = key' then value :: valuesOf key entries else valuesOf key entries := by
        rw [valuesOf, List.filterMap_cons, hValue key]
        split <;> simp_all [valuesOf]
      rw [ih hRest, setting?_of_set hSet key, hValues]
      split
      · rw [List.getLast?_cons]
        cases (valuesOf key entries).getLast? <;> rfl
      · rfl

/-- Whatever entries are added, the scale of texts is positive. -/
theorem textScale_pos_of_foldlM {entries : List Expr} {o o' : Options}
    (h : entries.foldlM addEntry o = .ok o') (hScale : 0.0 < o.textScale) :
    0.0 < o'.textScale := by
  induction entries generalizing o with
  | nil =>
      cases h
      exact hScale
  | cons entry entries ih =>
      rw [List.foldlM_cons] at h
      obtain ⟨o₁, hFirst, hRest⟩ := bind_eq_ok h
      obtain ⟨_, _, _, hSet⟩ := exists_of_addEntry hFirst
      exact ih hRest (textScale_pos_of_set hSet hScale)

/-! What a plot takes from its options. -/

/-- The options are those that the entries ask for; what they do not mention is as
in a plot without options. -/
def Given (entries : List Expr) (o : Options) : Prop :=
  ∀ key, o.setting? key =
    ((valuesOf key entries).getLast?.map Expr.head).or (({} : Options).setting? key)

theorem textScale_pos_default : 0.0 < ({} : Options).textScale := by decide +kernel

/-- Options that are accepted are a list, and they are what its entries ask for. -/
theorem given_of_ofExpr {e : Expr} {o : Options} (h : ofExpr e = .ok o) :
    e.isList = true ∧ o.Given e.tail ∧ 0.0 < o.textScale := by
  unfold ofExpr at h
  split at h
  · next hList =>
      exact ⟨hList, setting?_of_foldlM h, textScale_pos_of_foldlM h textScale_pos_default⟩
  · cases h

def scaleIn (entries : List Expr) : Float :=
  ((valuesOf .textScale entries).getLast?.bind Expr.headNumber?).getD 1.0

/-- The names of texts that entries mention, in the order in which plots show the
texts. -/
def captionKeys (entries : List Expr) : List OptionKey :=
  [.title, .abscissaLabel, .ordinateLabel].filter fun key => !(valuesOf key entries).isEmpty

def captionIn (entries : List Expr) (key : OptionKey) : Option String :=
  (valuesOf key entries).getLast?.bind Expr.headString?

section Given
variable {entries : List Expr} {o : Options} {key : OptionKey} {text : Option String}

/-- A text that is set is the one that was given last. -/
theorem captionIn_of_setting
    (h : text.map Atom.string = (valuesOf key entries).getLast?.map Expr.head) :
    captionIn entries key = text := by
  cases hLast : (valuesOf key entries).getLast? with
  | none =>
      have hText : text = none := by simpa [hLast] using h
      simp [captionIn, hLast, hText]
  | some value =>
      obtain ⟨t, rfl, hHead⟩ : ∃ t, text = some t ∧ Atom.string t = value.head := by
        simpa [hLast] using h
      simp [captionIn, hLast, Expr.headString?_eq_some_iff.mpr hHead.symm]

/-- A text is shown if and only if its name is mentioned. -/
theorem captions_of_setting
    (h : text.map Atom.string = (valuesOf key entries).getLast?.map Expr.head) :
    text.toList.map some =
      ([key].filter fun key => !(valuesOf key entries).isEmpty).map (captionIn entries) := by
  have hCaption := captionIn_of_setting h
  cases text with
  | none =>
      have hEmpty : valuesOf key entries = [] := by simpa using h.symm
      simp [hEmpty]
  | some text =>
      have hMentioned : valuesOf key entries ≠ [] := by
        intro hEmpty
        simp [hEmpty] at h
      simp [hMentioned, hCaption]

variable (h : o.Given entries)
include h

/-- The scale is the one that was given last, or one. -/
theorem Given.textScale_eq : o.textScale = scaleIn entries := by
  have hSetting := h .textScale
  unfold scaleIn
  cases hLast : (valuesOf .textScale entries).getLast? with
  | none => simpa [hLast, setting?] using hSetting
  | some value =>
      have hHead : value.head = .number o.textScale := by
        simpa [hLast, setting?, eq_comm] using hSetting
      simp [Expr.headNumber?_eq_some_iff.mpr hHead]

theorem Given.title_eq : captionIn entries .title = o.title :=
  captionIn_of_setting ((h .title).trans (Option.or_none ..))

theorem Given.abscissaLabel_eq : captionIn entries .abscissaLabel = o.abscissaLabel :=
  captionIn_of_setting ((h .abscissaLabel).trans (Option.or_none ..))

theorem Given.ordinateLabel_eq : captionIn entries .ordinateLabel = o.ordinateLabel :=
  captionIn_of_setting ((h .ordinateLabel).trans (Option.or_none ..))

/-- The texts of a plot are those that the entries mention, in the order in which
plots show them. -/
theorem Given.captions_eq :
    (o.title.toList ++ o.abscissaLabel.toList ++ o.ordinateLabel.toList).map some =
      (captionKeys entries).map (captionIn entries) := by
  have hTitle := captions_of_setting ((h .title).trans (Option.or_none ..))
  have hAbscissa := captions_of_setting ((h .abscissaLabel).trans (Option.or_none ..))
  have hOrdinate := captions_of_setting ((h .ordinateLabel).trans (Option.or_none ..))
  rw [List.map_append, List.map_append, hTitle, hAbscissa, hOrdinate, ← List.map_append,
    ← List.map_append, ← List.filter_append, ← List.filter_append]
  rfl

end Given
end Options
end Plot
end PlotLang
