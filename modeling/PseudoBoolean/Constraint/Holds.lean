import PseudoBoolean.Constraint.Basic

namespace PseudoBoolean

variable {α : Type}

def truth (b : Bool) : Int := if b then 1 else 0

def total {β : Type} (f : β → Int) (l : List β) : Int := l.foldr (fun b n => f b + n) 0

@[simp] theorem total_nil {β : Type} (f : β → Int) : total f [] = 0 := rfl

@[simp] theorem total_cons {β : Type} (f : β → Int) (b : β) (l : List β) : total f (b :: l) = f b + total f l := rfl

@[simp] theorem total_append {β : Type} (f : β → Int) (l l' : List β) : total f (l ++ l') = total f l + total f l' := by
  induction l with
  | nil => simp
  | cons b l ih => rw [List.cons_append, total_cons, total_cons, ih, Int.add_assoc]

namespace LinearSum

def value (I : Interpretation α) (binding : α → α) (s : LinearSum α) : Int :=
  total (fun a => truth (I.value (binding a))) s.plus + total (fun r => I.trueCount r.set) s.plusSets -
    total (fun a => truth (I.value (binding a))) s.minus - total (fun r => I.trueCount r.set) s.minusSets

end LinearSum

namespace Bound

def value (I : Interpretation α) (b : Bound α) : Int :=
  b.constant - total (fun r => I.cardinality r.set) b.minusCardinalities

end Bound

namespace Constraint

variable [Ordered α]

def holdsAt (I : Interpretation α) (binding : α → α) (k : Constraint α) : Bool :=
  k.bound.value I ≤ k.sum.value I binding

/-- Whether the inequality is true for every choice of members for the ranges; of several ranges with
one element the last decides what the element stands for. -/
def holdsFor (I : Interpretation α) (k : Constraint α) : List (Range α) → (α → α) → Bool
  | [], binding => k.holdsAt I binding
  | r :: rs, binding =>
    (I.members r.set).all fun a => holdsFor I k rs (Interpretation.update binding r.element a)

def holds (I : Interpretation α) (k : Constraint α) : Bool := k.holdsFor I k.quantified.toList id

end Constraint

end PseudoBoolean
