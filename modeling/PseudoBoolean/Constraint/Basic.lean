import PseudoBoolean.Cnf.Basic

/-!
Clauses as linear inequalities over variables that are 0 or 1. A literal that must be gone through
member by member, `!one x in X` or `all x in X`, contributes the variable `x`, and the inequality is
asked for every member of `X` in its place.
-/

namespace PseudoBoolean

variable {α : Type}

structure LinearSum (α : Type) where
  plus : List α := []
  minus : List α := []
  plusSets : List (Range α) := []
  minusSets : List (Range α) := []
deriving DecidableEq

def LinearSum.isEmpty (s : LinearSum α) : Bool :=
  s.plus.isEmpty && s.minus.isEmpty && s.plusSets.isEmpty && s.minusSets.isEmpty

structure Bound (α : Type) where
  constant : Int
  minusCardinalities : List (Range α) := []
deriving DecidableEq

/-- The inequality `sum ≥ bound`, asked for every choice of members for the ranges in `quantified`. -/
structure Constraint (α : Type) [Ordered α] where
  quantified : OrderedSet (Range α) := ∅
  sum : LinearSum α := {}
  bound : Bound α

variable [Ordered α]

@[ext] theorem Constraint.ext {k k' : Constraint α} (hq : k.quantified = k'.quantified) (hs : k.sum = k'.sum)
    (hb : k.bound = k'.bound) : k = k' := by
  cases k; cases k'; cases hq; cases hs; cases hb; rfl

namespace Constraint

def isQuantified (k : Constraint α) : Bool := !k.quantified.isEmpty

def unsatisfiable : Constraint α := { bound := { constant := 1 } }

def addLiteral (k : Constraint α) (l : Literal α) : Constraint α :=
  match l.positive, l.atom with
  | true, .plain a => { k with sum.plus := k.sum.plus ++ [a] }
  | false, .plain a =>
    { k with sum.minus := k.sum.minus ++ [a], bound.constant := k.bound.constant - 1 }
  | true, .one r => { k with sum.plusSets := k.sum.plusSets ++ [r] }
  | false, .one r =>
    { quantified := k.quantified.insert r
      sum := { k.sum with minus := k.sum.minus ++ [r.element] }
      bound := { k.bound with constant := k.bound.constant - 1 } }
  | true, .all r =>
    { k with quantified := k.quantified.insert r, sum.plus := k.sum.plus ++ [r.element] }
  | false, .all r =>
    { k with
      sum.minusSets := k.sum.minusSets ++ [r]
      bound.minusCardinalities := k.bound.minusCardinalities ++ [r] }

def ofClause (c : Clause α) : Constraint α := c.toList.foldl addLiteral unsatisfiable

end Constraint

def Cnf.constraints (f : Cnf α) : List (Constraint α) := f.toList.map Constraint.ofClause

end PseudoBoolean
