import PlotLang.Proofs.Builtin
import PlotLang.Proofs.Computation

/-! Number faults: the errors that belong to no kind of the language. Only a few
procedures have them, each its own. All other errors of a procedure are kept to
what they say: a count of arguments is refused only if it is none of the counts
that are taken, so the parts of arguments that a procedure takes are there. -/
namespace PlotLang

/-- How the host reports a number fault. -/
inductive FaultClass where
  /-- the operation is not defined at its argument -/
  | value
  /-- the result is out of range -/
  | overflow
  /-- the operation divides by zero -/
  | zeroDivision
deriving DecidableEq, Repr

def NumberFault.faultClass : NumberFault → FaultClass
  | domain | undefinedCount => .value
  | infiniteCount | modulusOverflow | vanishedAngle => .overflow
  | vanishedPower => .zeroDivision

/-- An error whose cause is as it says, with its number fault among the given
ones. A call refused for its procedure has none, and a call refused for its count
of arguments has a wrong one. -/
def EvalError.Justified (raised : NumberFault → Prop) : EvalError → Prop
  | .notCallable (.value proc) => proc.isCallable = false
  | .notCallable (.argument _ proc) => proc.isCallable = false
  | .arity (.builtin _ allowed got) => got ∉ allowed
  | .arity (.lambda c got) => got ≠ c.formals.length
  | .number fault => raised fault
  | _ => True

/-- Only a number fault depends on which ones are given. -/
theorem EvalError.Justified.mono {raised raised' : NumberFault → Prop} {e : EvalError}
    (he : e.Justified raised) (h : ∀ fault, e = .number fault → raised fault → raised' fault) :
    e.Justified raised' := by
  cases e with
  | number fault => exact h fault rfl he
  | unbound name | mismatch cause | malformed cause | stackExhausted limit => trivial
  | arity cause => cases cause <;> exact he
  | notCallable cause => cases cause <;> exact he

namespace Builtin

/-- The number faults that a procedure can have. -/
def faults : Builtin → List NumberFault
  | sin | cos | tan => [.domain]
  | range => [.undefinedCount, .infiniteCount]
  | mag => [.modulusOverflow]
  | arg => [.vanishedAngle]
  | pow => [.vanishedPower]
  | _ => []

def faultClasses : Builtin → List FaultClass
  | sin | cos | tan => [.value]
  | range => [.value, .overflow]
  | mag | arg => [.overflow]
  | pow => [.zeroDivision]
  | _ => []

/-- A fault that a procedure can have is of a class that it documents. -/
theorem faultClass_mem {b : Builtin} {fault : NumberFault} (h : fault ∈ b.faults) :
    fault.faultClass ∈ b.faultClasses := by
  have hTable : b.faultClasses = b.faults.map NumberFault.faultClass := by
    cases b <;> rfl
  rw [hTable]
  exact List.mem_map_of_mem h

/-- The errors that a procedure can have. -/
def Fails (b : Builtin) : EvalError → Prop := EvalError.Justified (· ∈ b.faults)

variable {b : Builtin} {args : List Expr}

/-! Arguments that do not fit are no number fault. -/

/-- Any procedure may refuse the count of its arguments. -/
theorem checkArity_raises (allowed : List Nat) : Raises b.Fails (checkArity b allowed args) := by
  unfold checkArity
  split
  · exact raises_ok ()
  · next h =>
      refine raises_error ?_
      show args.length ∉ allowed
      simpa using h

theorem one_raises : Raises b.Fails (one b args) := by
  unfold one
  split
  · exact raises_ok _
  · next h =>
      refine raises_error ?_
      show args.length ∉ [1]
      rw [List.mem_singleton, List.length_eq_one_iff]
      rintro ⟨a, rfl⟩
      exact h a rfl

theorem two_raises : Raises b.Fails (two b args) := by
  unfold two
  split
  · exact raises_ok _
  · next h =>
      refine raises_error ?_
      show args.length ∉ [2]
      rw [List.mem_singleton, List.length_eq_two]
      rintro ⟨a, c, rfl⟩
      exact h a c rfl

/-- Any procedure may refuse an argument that is no number. -/
theorem number_raises (e : Expr) : Raises b.Fails (number b e) := by
  unfold number
  split
  · exact raises_ok _
  · exact raises_ok _
  · exact raises_error trivial

theorem realNumber_raises (e : Expr) : Raises b.Fails (realNumber b e) := by
  unfold realNumber
  split
  · exact raises_ok _
  · exact raises_error trivial

theorem complexNumber_raises (e : Expr) : Raises b.Fails (complexNumber b e) := by
  unfold complexNumber
  split
  · exact raises_ok _
  · exact raises_error trivial

theorem elements_raises (e : Expr) : Raises b.Fails (elements b e) :=
  raises_ite (raises_ok _) (raises_error trivial)

theorem headAndRest_raises (e : Expr) : Raises b.Fails (headAndRest b e) := by
  refine (elements_raises e).bind fun es _ => ?_
  cases es with
  | nil => exact raises_error trivial
  | cons x xs => exact raises_ok (x, xs)

/-- What passes the check has one of the allowed counts. -/
theorem length_mem_of_checkArity {allowed : List Nat} (h : checkArity b allowed args = .ok ()) :
    args.length ∈ allowed := by
  unfold checkArity at h
  split at h
  · next hAllowed => simpa using hAllowed
  · cases h

/-! The operations on numbers. -/

/-- Only the arithmetic of the procedure can fail once its arguments are numbers. -/
theorem runOneOrTwo_raises {f : Number → Except EvalError Number}
    {g : Number → Number → Except EvalError Number} (hf : ∀ x, Raises b.Fails (f x))
    (hg : ∀ x y, Raises b.Fails (g x y)) : Raises b.Fails (runOneOrTwo b f g args) := by
  refine (checkArity_raises [1, 2]).bind fun _ hArity => ?_
  refine (raises_mapM number_raises args).bind fun xs hxs => ?_
  have hLength : xs.length ∈ [1, 2] := by
    rw [← (forall₂_of_mapM hxs).length_eq]
    exact length_mem_of_checkArity hArity
  match xs, hLength with
  | [x], _ => exact (hf x).map _
  | [x, y], _ => exact (hg x y).map _

theorem quotient_raises (x y : Number) : Raises b.Fails (quotient x y) :=
  raises_ite (raises_error trivial) (raises_ok _)

/-- A function of real numbers fails on infinite ones, if the procedure documents
a domain. -/
theorem runFinite_raises {f : Float → Float} (hDomain : .domain ∈ b.faults) :
    Raises b.Fails (runFinite b f args) := by
  refine one_raises.bind fun a _ => (realNumber_raises a).bind fun x _ => ?_
  exact raises_ite (raises_error hDomain) (raises_ok _)

theorem runPart_raises {f : Complex → Except EvalError Float} (hf : ∀ z, Raises b.Fails (f z)) :
    Raises b.Fails (runPart b f args) := by
  refine one_raises.bind fun a _ => (complexNumber_raises a).bind fun z _ => ?_
  exact (hf z).bind fun x _ => raises_ok _

/-- The modulus can be too large for a number. -/
theorem modulus_raises (z : Complex) : Raises mag.Fails (modulus z) := by
  unfold modulus
  split
  · exact raises_ok _
  · exact raises_error (List.mem_singleton.mpr rfl)

/-- The angle can be too small for a number. -/
theorem angle_raises (z : Complex) : Raises arg.Fails (angle z) := by
  unfold angle
  split
  · exact raises_ok _
  · exact raises_error (List.mem_singleton.mpr rfl)

/-- A power that divides by zero is a fault of the number; one that is too large
is refused. -/
theorem complexPow_raises (z w : Complex) : Raises pow.Fails (Number.complexPow z w) := by
  unfold Number.complexPow
  split
  · exact raises_ok _
  · exact raises_error (List.mem_singleton.mpr rfl)
  · exact raises_error trivial

theorem realPow_raises (x y : Float) : Raises pow.Fails (Number.realPow x y) :=
  raises_ite (complexPow_raises _ _) (raises_ite (raises_error trivial) (raises_ok _))

/-- Both ways to raise to a power have the same fault. -/
theorem numberPow_raises (x y : Number) : Raises pow.Fails (x.pow y) := by
  cases x with
  | complex z => exact raises_ite (raises_error trivial) (complexPow_raises _ _)
  | real x =>
      cases y with
      | real y => exact raises_ite (raises_error trivial) (realPow_raises _ _)
      | complex w => exact raises_ite (raises_error trivial) (complexPow_raises _ _)

theorem numberLn_raises (x : Number) : Raises b.Fails x.ln := by
  cases x with
  | real x => exact raises_ite (raises_error trivial) (raises_ok _)
  | complex z => exact raises_ite (raises_error trivial) (raises_ok _)

/-- An infinite or undefined number has no floor. -/
theorem floorFloat_raises (x : Float) : Raises range.Fails (floorFloat x) := by
  have hUndefined : NumberFault.undefinedCount ∈ range.faults := by decide
  have hInfinite : NumberFault.infiniteCount ∈ range.faults := by decide
  exact raises_ite (raises_error hUndefined) (raises_ite (raises_error hInfinite) (raises_ok _))

/-- A range fails on its bounds, on its step, or on a count that is no whole number. -/
theorem rangeBetween_raises (start stop step : Float) :
    Raises range.Fails (PlotLang.range floorFloat start stop step) := by
  have hCount : Raises range.Fails (rangeCount floorFloat start stop step) :=
    (floorFloat_raises _).bind fun steps _ => raises_ok _
  refine raises_ite (raises_error trivial) (raises_ite (raises_error trivial) ?_)
  exact hCount.bind fun count _ => raises_ok _

/-- Every procedure fails only with errors of its own. -/
theorem run_raises (b : Builtin) (args : List Expr) : Raises b.Fails (b.run args) := by
  cases b with
  | add | mul => exact (raises_mapM number_raises args).bind fun xs _ => raises_ok _
  | sub => exact runOneOrTwo_raises (fun x => raises_ok _) fun x y => raises_ok _
  | div => exact runOneOrTwo_raises (quotient_raises _) quotient_raises
  | pow =>
      refine two_raises.bind fun p _ => (number_raises p.1).bind fun x _ => ?_
      refine (number_raises p.2).bind fun y _ => (numberPow_raises x y).bind fun z _ => ?_
      exact raises_ok _
  | sqrt => exact one_raises.bind fun a _ => (number_raises a).bind fun x _ => raises_ok _
  | ln =>
      refine one_raises.bind fun a _ => (number_raises a).bind fun x _ => ?_
      exact (numberLn_raises x).bind fun y _ => raises_ok _
  | sin | cos | tan => exact runFinite_raises (by decide)
  | real | imag => exact runPart_raises fun z => raises_ok _
  | mag => exact runPart_raises modulus_raises
  | arg => exact runPart_raises angle_raises
  | conj => exact one_raises.bind fun a _ => (complexNumber_raises a).bind fun z _ => raises_ok _
  | list => exact raises_ok _
  | first | rest =>
      exact one_raises.bind fun a _ => (headAndRest_raises a).bind fun p _ => raises_ok _
  | length => exact one_raises.bind fun a _ => (elements_raises a).bind fun xs _ => raises_ok _
  | append => exact two_raises.bind fun p _ => (elements_raises p.1).bind fun xs _ => raises_ok _
  | join =>
      refine two_raises.bind fun p _ => (elements_raises p.1).bind fun xs _ => ?_
      exact (elements_raises p.2).bind fun ys _ => raises_ok _
  | range =>
      refine (checkArity_raises [3]).bind fun _ hArity => ?_
      refine (raises_mapM realNumber_raises args).bind fun xs hxs => ?_
      have hLength : xs.length = 3 := by
        rw [← (forall₂_of_mapM hxs).length_eq]
        exact List.mem_singleton.mp (length_mem_of_checkArity hArity)
      match xs, hLength with
      | [start, stop, step], _ =>
          exact (rangeBetween_raises start stop step).bind fun ys _ => raises_ok _
  | makePoint =>
      refine two_raises.bind fun p _ => (realNumber_raises p.1).bind fun x _ => ?_
      exact (realNumber_raises p.2).bind fun y _ => raises_ok _
  | makeLine =>
      exact two_raises.bind fun p _ => raises_ite (raises_ok _) (raises_error trivial)
  | makeText =>
      refine one_raises.bind fun a _ => ?_
      split
      · exact raises_ok _
      · exact raises_error trivial

/-- The number fault of a call is one of its procedure. -/
theorem mem_faults_of_run {fault : NumberFault} (h : b.run args = .error (.number fault)) :
    fault ∈ b.faults :=
  run_raises b args _ h

end Builtin
end PlotLang
