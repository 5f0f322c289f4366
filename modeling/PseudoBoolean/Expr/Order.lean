import PseudoBoolean.Expr.Basic

/-!
The structural order of expressions: first by kind of node (variable, negation, conjunction,
disjunction, implication, equivalence, "one", "all"), then by the parts from left to right.
Comparing two expressions is comparing their nodes in preorder (`Expr.compare_nodes`), from which
the laws of a total order follow.
-/

namespace PseudoBoolean

variable {α : Type} [Ordered α]

instance : Ordered (Range α) where
  compare r s := compare [r.element, r.set] [s.element, s.set]
  eq_swap := Std.OrientedOrd.eq_swap (α := List α)
  isLE_trans := Std.TransOrd.isLE_trans (α := List α)
  compare_self := Std.ReflOrd.compare_self (α := List α)
  eq_of_compare {r s} h := by
    have h := Std.LawfulEqOrd.eq_of_compare h
    cases r; cases s; cases h; rfl

theorem Range.compare_def (r s : Range α) :
    compare r s = (compare r.element s.element).then (compare r.set s.set) := by
  change compare [r.element, r.set] [s.element, s.set] = _
  simp only [List.compare_cons_cons, List.compare_nil_nil]
  cases compare r.set s.set <;> rfl

namespace Expr

def rank : Expr α → Nat
  | .atom (.plain _) => 0
  | .not _ => 1
  | .and _ _ => 2
  | .or _ _ => 3
  | .imp _ _ => 4
  | .iff _ _ => 5
  | .atom (.one _) => 6
  | .atom (.all _) => 7

def cmp : Expr α → Expr α → Ordering
  | .atom (.plain a), .atom (.plain b) => compare a b
  | .atom (.one r), .atom (.one s) => compare r s
  | .atom (.all r), .atom (.all s) => compare r s
  | .not a, .not b => a.cmp b
  | .and a b, .and c d => (a.cmp c).then (b.cmp d)
  | .or a b, .or c d => (a.cmp c).then (b.cmp d)
  | .imp a b, .imp c d => (a.cmp c).then (b.cmp d)
  | .iff a b, .iff c d => (a.cmp c).then (b.cmp d)
  | e, f => compare e.rank f.rank

end Expr

structure Node (α : Type) where
  rank : Nat
  labels : List α

instance : Ordered (Node α) where
  compare := compareLex (compareOn Node.rank) (compareOn Node.labels)
  eq_swap := Std.OrientedCmp.eq_swap
  isLE_trans := Std.TransCmp.isLE_trans
  compare_self := Std.ReflCmp.compare_self
  eq_of_compare {m n} h := by
    simp only [compareLex, compareOn, Ordering.then_eq_eq, Std.LawfulEqOrd.compare_eq_iff_eq] at h
    cases m; cases n; cases h.1; cases h.2; rfl

theorem Node.compare_def (m n : Node α) :
    compare m n = (compare m.rank n.rank).then (compare m.labels n.labels) := rfl

namespace Expr

def nodes : Expr α → List (Node α)
  | .atom (.plain a) => [⟨0, [a]⟩]
  | .not a => ⟨1, []⟩ :: a.nodes
  | .and a b => ⟨2, []⟩ :: (a.nodes ++ b.nodes)
  | .or a b => ⟨3, []⟩ :: (a.nodes ++ b.nodes)
  | .imp a b => ⟨4, []⟩ :: (a.nodes ++ b.nodes)
  | .iff a b => ⟨5, []⟩ :: (a.nodes ++ b.nodes)
  | .atom (.one r) => [⟨6, [r.element, r.set]⟩]
  | .atom (.all r) => [⟨7, [r.element, r.set]⟩]

theorem compare_nodes (e f : Expr α) (s t : List (Node α)) :
    compare (e.nodes ++ s) (f.nodes ++ t) = (e.cmp f).then (compare s t) := by
  induction e generalizing f s t with
  | atom a =>
    rcases a with _ | _ | _ <;> rcases f with (_ | _ | _) | _ | _ | _ | _ | _ <;>
      simp [nodes, cmp, rank, Node.compare_def, List.compare_cons_cons, Range.compare_def, Nat.compare_eq_ite_lt,
        Ordering.then_assoc]
  | not a ih =>
    rcases f with (_ | _ | _) | _ | _ | _ | _ | _ <;>
      simp [nodes, cmp, rank, Node.compare_def, List.compare_cons_cons, Nat.compare_eq_ite_lt, ih]
  | and a b iha ihb | or a b iha ihb | imp a b iha ihb | iff a b iha ihb =>
    rcases f with (_ | _ | _) | _ | _ | _ | _ | _ <;>
      simp [nodes, cmp, rank, Node.compare_def, List.compare_cons_cons, Nat.compare_eq_ite_lt, iha, ihb,
        Ordering.then_assoc]

theorem cmp_eq_compare_nodes (e f : Expr α) : e.cmp f = compare e.nodes f.nodes := by
  simpa using (compare_nodes e f [] []).symm

theorem eq_of_cmp {e f : Expr α} (h : e.cmp f = .eq) : e = f := by
  induction e generalizing f with
  | atom a =>
    rcases a with _ | _ | _ <;> rcases f with (_ | _ | _) | _ | _ | _ | _ | _ <;>
      simp_all [cmp, rank, Nat.compare_eq_ite_lt]
  | not a ih =>
    rcases f with (_ | _ | _) | _ | _ | _ | _ | _ <;> simp [cmp, rank, Nat.compare_eq_ite_lt] at h
    rw [ih h]
  | and a b iha ihb | or a b iha ihb | imp a b iha ihb | iff a b iha ihb =>
    rcases f with (_ | _ | _) | _ | _ | _ | _ | _ <;>
      simp [cmp, rank, Nat.compare_eq_ite_lt, Ordering.then_eq_eq] at h
    rw [iha h.1, ihb h.2]

instance : Ordered (Expr α) where
  compare := cmp
  eq_swap {e f} := by
    simp only [cmp_eq_compare_nodes]
    exact Std.OrientedOrd.eq_swap
  isLE_trans {e f g} := by
    simp only [cmp_eq_compare_nodes]
    exact Std.TransOrd.isLE_trans
  compare_self {e} := by
    simp only [cmp_eq_compare_nodes]
    exact Std.ReflOrd.compare_self
  eq_of_compare := eq_of_cmp

end Expr

instance : Ordered (Literal α) where
  compare l m := compare l.toExpr m.toExpr
  eq_swap := Std.OrientedOrd.eq_swap (α := Expr α)
  isLE_trans := Std.TransOrd.isLE_trans (α := Expr α)
  compare_self := Std.ReflOrd.compare_self (α := Expr α)
  eq_of_compare h := Literal.toExpr_injective (Std.LawfulEqOrd.eq_of_compare h)

end PseudoBoolean
