import PseudoBoolean.Expr.Basic

/-!
Precedence: negation binds first, then `Tight` operators, then `Loose` ones; operators of one level
group to the left. A formula is read with a stack of `Frame`s, which hold what has been read to the
left of the operand in hand and still waits for it.
-/

namespace PseudoBoolean

class Formula (φ : Type) where
  not : φ → φ
  and : φ → φ → φ
  or : φ → φ → φ
  imp : φ → φ → φ
  iff : φ → φ → φ

instance {α : Type} : Formula (Expr α) where
  not := .not
  and := .and
  or := .or
  imp := .imp
  iff := .iff

inductive Tight
  | and
  | or
deriving DecidableEq

inductive Loose
  | imp
  | iff
deriving DecidableEq

variable {φ : Type}

inductive Frame (φ : Type)
  | negation
  | group
  | tight (left : φ) (op : Tight)
  | loose (left : φ) (op : Loose)
deriving DecidableEq

namespace Frame

def nests : Frame φ → Bool
  | .negation | .group => true
  | .tight _ _ | .loose _ _ => false

def depth (stack : List (Frame φ)) : Nat := stack.countP nests

def inGroup : List (Frame φ) → Bool
  | [] => false
  | .group :: _ => true
  | _ :: stack => inGroup stack

end Frame

variable [Formula φ]

def Tight.join (a b : φ) : Tight → φ
  | .and => Formula.and a b
  | .or => Formula.or a b

def Loose.join (a b : φ) : Loose → φ
  | .imp => Formula.imp a b
  | .iff => Formula.iff a b

namespace Frame

def take : List (Frame φ) → φ → List (Frame φ) × φ
  | .negation :: stack, a => take stack (Formula.not a)
  | .tight left op :: stack, a => (stack, op.join left a)
  | stack, a => (stack, a)

def settle : List (Frame φ) → φ → List (Frame φ) × φ
  | .loose left op :: stack, a => (stack, op.join left a)
  | stack, a => (stack, a)

def closeGroup? (stack : List (Frame φ)) (a : φ) : Option (List (Frame φ) × φ) :=
  match settle stack a with
  | (.group :: stack, a) => some (take stack a)
  | _ => none

def finish? (stack : List (Frame φ)) (a : φ) : Option φ :=
  match settle stack a with
  | ([], a) => some a
  | _ => none

end Frame

end PseudoBoolean
