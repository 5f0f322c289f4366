import PseudoBoolean.Interpretation
import PseudoBoolean.Expr.Render

namespace PseudoBoolean

variable {α : Type}

abbrev Clause (α : Type) [Ordered α] := OrderedSet (Literal α)

abbrev Cnf (α : Type) [Ordered α] := OrderedSet (Clause α)

structure NonLiteral (α : Type) where
  member : Expr α
deriving DecidableEq

instance [ToString α] : ToString (NonLiteral α) := ⟨fun e => toString e.member ++ " is not a literal"⟩

def allLiterals (members : List (Expr α)) : Bool := members.all Expr.isLiteral

def literals? : List (Expr α) → Except (NonLiteral α) (List (Literal α))
  | [] => .ok []
  | e :: es =>
    match e.literal? with
    | none => .error ⟨e⟩
    | some l => (literals? es).map (l :: ·)

variable [Ordered α]

namespace Clause

def ofExprs? (members : List (Expr α)) : Except (NonLiteral α) (Clause α) :=
  (literals? members).map OrderedSet.ofList

def exprs (c : Clause α) : List (Expr α) := c.toList.map Literal.toExpr

def hasMember (c : Clause α) (e : Expr α) : Bool := e.literal?.any c.contains

def eval (I : Interpretation α) (c : Clause α) : Bool := c.toList.any (Literal.eval I)

theorem eval_iff {I : Interpretation α} {c : Clause α} : c.eval I = true ↔ ∃ l ∈ c, l.eval I = true :=
  List.any_eq_true

end Clause

namespace Cnf

def eval (I : Interpretation α) (f : Cnf α) : Bool := f.toList.all (Clause.eval I)

theorem eval_iff {I : Interpretation α} {f : Cnf α} : f.eval I = true ↔ ∀ c ∈ f, c.eval I = true :=
  List.all_eq_true

def subsumes (f : Cnf α) (c : Clause α) : Bool := f.toList.any fun d => d.size < c.size && d.isSubset c

theorem subsumes_iff {f : Cnf α} {c : Clause α} :
    f.subsumes c = true ↔ ∃ d ∈ f, d.size < c.size ∧ ∀ l ∈ d, l ∈ c := by
  simp [subsumes, OrderedSet.mem_def]

def minimal (f : Cnf α) : Cnf α := f.filter fun c => !f.subsumes c

theorem mem_minimal {f : Cnf α} {c : Clause α} : c ∈ f.minimal ↔ c ∈ f ∧ f.subsumes c = false := by
  simp [minimal]

def isMinimal (f : Cnf α) : Bool := f.toList.all fun c => !f.subsumes c

end Cnf

def bracketed (items : List String) : String := "[" ++ ", ".intercalate items ++ "]"

variable [ToString α]

def Clause.render (style : Style) (c : Clause α) : String :=
  let items := c.toList.map (Literal.render style)
  match style with
  | .source | .unicode => bracketed items
  | .latex => "(" ++ style.or.intercalate items ++ ")"

def Cnf.render (style : Style) (f : Cnf α) : String :=
  let items := f.toList.map (Clause.render style)
  match style with
  | .source | .unicode => bracketed items
  | .latex => if f.isEmpty then "\\top" else style.and.intercalate items

end PseudoBoolean
