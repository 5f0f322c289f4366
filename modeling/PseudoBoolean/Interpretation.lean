import PseudoBoolean.Expr.Order

namespace PseudoBoolean

variable {α : Type}

/-- Truth values of labels, and the members of sets, which are labels too; a member may be listed
more than once. -/
structure Interpretation (α : Type) where
  value : α → Bool
  members : α → List α

namespace Interpretation

def initial : Interpretation α := ⟨fun _ => false, fun _ => []⟩

def cardinality (I : Interpretation α) (set : α) : Nat := (I.members set).length

def trueCount (I : Interpretation α) (set : α) : Nat := (I.members set).countP I.value

variable [Ordered α]

def update {β : Type} (f : α → β) (a : α) (b : β) : α → β := fun x => if compare x a = .eq then b else f x

theorem update_apply {β : Type} (f : α → β) (a : α) (b : β) (x : α) [Decidable (x = a)] :
    update f a b x = if x = a then b else f x := by
  simp [update]

def set (I : Interpretation α) (a : α) (b : Bool) : Interpretation α := { I with value := update I.value a b }

def define (I : Interpretation α) (set : α) (members : List α) : Interpretation α :=
  { I with members := update I.members set members }

end Interpretation

def Atom.eval (I : Interpretation α) : Atom α → Bool
  | .plain a => I.value a
  | .one r => (I.members r.set).any I.value
  | .all r => (I.members r.set).all I.value

def Expr.eval (I : Interpretation α) : Expr α → Bool
  | .atom a => a.eval I
  | .not a => !a.eval I
  | .and a b => a.eval I && b.eval I
  | .or a b => a.eval I || b.eval I
  | .imp a b => !a.eval I || b.eval I
  | .iff a b => a.eval I == b.eval I

def Literal.eval (I : Interpretation α) (l : Literal α) : Bool := l.atom.eval I == l.positive

end PseudoBoolean
