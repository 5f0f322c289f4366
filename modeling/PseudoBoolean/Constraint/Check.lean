import PseudoBoolean.Constraint.Holds

namespace PseudoBoolean

variable {α : Type}

/-- What becomes of a result that 64 bits cannot hold: its low bits are kept, or there is no answer. -/
inductive Overflow
  | wraps
  | stops
deriving DecidableEq

def word (n : Int) : Int := n.bmod 18446744073709551616

namespace Overflow

def fit (o : Overflow) (n : Int) : Option Int :=
  match o with
  | .wraps => some (word n)
  | .stops => if -9223372036854775808 ≤ n ∧ n ≤ 9223372036854775807 then some n else none

def sum {β : Type} (o : Overflow) (f : β → Int) (l : List β) : Option Int :=
  l.foldlM (fun n b => o.fit (n + f b)) 0

end Overflow

-- a count of members becomes a 64-bit number before anything is added, and that never stops
def LinearSum.evaluate (o : Overflow) (I : Interpretation α) (v : α → Bool) (s : LinearSum α) : Option Int := do
  let n ← o.sum (fun a => truth (v a)) s.plus
  let n ← o.fit (n + (← o.sum (fun r => word (I.trueCount r.set)) s.plusSets))
  let n ← o.fit (n - (← o.sum (fun a => truth (v a)) s.minus))
  o.fit (n - (← o.sum (fun r => word (I.trueCount r.set)) s.minusSets))

def Bound.evaluate (o : Overflow) (I : Interpretation α) (b : Bound α) : Option Int := do
  o.fit (b.constant - (← o.sum (fun r => word (I.cardinality r.set)) b.minusCardinalities))

def standing (table : α → Option α) (a : α) : α := (table a).getD a

namespace Constraint

variable [Ordered α]

def inequality (o : Overflow) (I : Interpretation α) (v : α → Bool) (k : Constraint α) : Option Bool := do
  let sum ← k.sum.evaluate o I v
  let bound ← k.bound.evaluate o I
  return bound ≤ sum

/-- Nothing is taken out of the table again, and the first inequality that fails ends the search. -/
def search (o : Overflow) (I : Interpretation α) (k : Constraint α) :
    List (Range α) → StateT (α → Option α) Option Bool
  | [] => do
    let table ← get
    k.inequality o I fun a => I.value (standing table a)
  | r :: rs => (I.members r.set).allM fun a => do
    modify fun table => Interpretation.update table r.element (some a)
    search o I k rs

def check (o : Overflow) (I : Interpretation α) (k : Constraint α) : Option Bool :=
  (k.search o I k.quantified.toList).run' fun _ => none

end Constraint

end PseudoBoolean
