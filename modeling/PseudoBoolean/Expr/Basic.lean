import PseudoBoolean.OrderedSet

namespace PseudoBoolean

variable {α : Type}

structure Range (α : Type) where
  element : α
  set : α
deriving DecidableEq

/-- What an expression takes as indivisible: a variable, "some member of the set is true", or
"all members of the set are true". -/
inductive Atom (α : Type)
  | plain (label : α)
  | one (range : Range α)
  | all (range : Range α)
deriving DecidableEq

inductive Expr (α : Type)
  | atom (a : Atom α)
  | not (a : Expr α)
  | and (a b : Expr α)
  | or (a b : Expr α)
  | imp (a b : Expr α)
  | iff (a b : Expr α)
deriving DecidableEq

structure Literal (α : Type) where
  positive : Bool
  atom : Atom α
deriving DecidableEq

namespace Expr

def var (label : α) : Expr α := .atom (.plain label)

def one (element set : α) : Expr α := .atom (.one ⟨element, set⟩)

def all (element set : α) : Expr α := .atom (.all ⟨element, set⟩)

instance : Complement (Expr α) := ⟨.not⟩
instance : AndOp (Expr α) := ⟨.and⟩
instance : OrOp (Expr α) := ⟨.or⟩

def literal? : Expr α → Option (Literal α)
  | .atom a => some ⟨true, a⟩
  | .not (.atom a) => some ⟨false, a⟩
  | _ => none

def isAtom : Expr α → Bool
  | .atom _ => true
  | _ => false

def isLiteral (e : Expr α) : Bool := e.literal?.isSome

def size : Expr α → Nat
  | .atom _ => 1
  | .not a => a.size + 1
  | .and a b | .or a b | .imp a b | .iff a b => a.size + b.size + 1

def leaves : Expr α → List (Atom α)
  | .atom a => [a]
  | .not a => a.leaves
  | .and a b | .or a b | .imp a b | .iff a b => a.leaves ++ b.leaves

end Expr

namespace Atom

def label? : Atom α → Option α
  | .plain a => some a
  | .one _ | .all _ => none

def range? : Atom α → Option (Range α)
  | .plain _ => none
  | .one r | .all r => some r

def labels : Atom α → List α
  | .plain a => [a]
  | .one r | .all r => [r.element, r.set]

end Atom

namespace Literal

def toExpr (l : Literal α) : Expr α := if l.positive then .atom l.atom else .not (.atom l.atom)

@[simp] theorem literal?_toExpr (l : Literal α) : l.toExpr.literal? = some l := by
  rcases l with ⟨_ | _, _⟩ <;> rfl

theorem toExpr_injective {l m : Literal α} (h : l.toExpr = m.toExpr) : l = m := by
  simpa using congrArg Expr.literal? h

end Literal

namespace Expr

def labels (e : Expr α) : List α := e.leaves.flatMap Atom.labels

theorem literal?_eq_some {e : Expr α} {l : Literal α} : e.literal? = some l ↔ e = l.toExpr := by
  constructor
  · intro h
    unfold literal? at h
    split at h <;> cases h <;> rfl
  · rintro rfl
    simp

variable [Ordered α]

def vars (e : Expr α) : OrderedSet α := .ofList (e.leaves.filterMap Atom.label?)

def sets (e : Expr α) : OrderedSet α := .ofList (e.leaves.filterMap fun a => a.range?.map Range.set)

end Expr

end PseudoBoolean
