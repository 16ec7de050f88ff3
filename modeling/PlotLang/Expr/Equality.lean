import PlotLang.Expr.PlotObject

/-!
Equality of expressions: equal heads and, child by child, equal tails. Properties count only where
one of the two sides is a plot object; they are then compared as finite maps, without regard to
order. A number that is not equal to itself makes every expression that holds it unequal to itself.
-/

namespace PlotLang.Expr

mutual

def equal : Expr → Expr → Bool
  | ⟨a, es, ps⟩, other =>
    a.equal other.head && es.length == other.tail.length
      && (if (Expr.mk a es ps).isPlotObject || other.isPlotObject
          then ps.length == other.properties.length && equalProperties ps other.properties
          else true)
      && equalAll es other.tail

/-- Equality child by child, up to the end of the shorter list. -/
def equalAll : List Expr → List Expr → Bool
  | e :: es, f :: fs => equal e f && equalAll es fs
  | _, _ => true

/-- Whether each property of the first table has an equal one in the second. -/
def equalProperties : List (String × Expr) → List (String × Expr) → Bool
  | [], _ => true
  | p :: ps, qs => equalProperty p qs && equalProperties ps qs

/-- Whether a property has an equal one of the same key in a table. -/
def equalProperty : String × Expr → List (String × Expr) → Bool
  | (k, v), qs =>
    match Table.get? qs k with
    | some w => equal v w
    | Option.none => false

end

instance : BEq Expr := ⟨equal⟩

mutual

/-- Whether one and the same value equals itself. Its properties are then the same table, so only
the heads of the value and of its children matter. -/
def isReflexive : Expr → Bool
  | ⟨a, es, _⟩ => a.equal a && areReflexive es

def areReflexive : List Expr → Bool
  | [] => true
  | e :: es => isReflexive e && areReflexive es

end

end PlotLang.Expr
