import PseudoBoolean.Cnf.Basic

/-!
Conversion to conjunctive normal form. Disjunctions are worked on until all their members are
literals; a member that is none is replaced by an equivalent conjunction of disjunctions, and the
disjunction it stands in by one copy for each of these. That this ends is seen from `effort`:
a replacement may copy what it finds, but the copies weigh less together than the disjunction before.
-/

namespace PseudoBoolean

variable {α : Type}

inductive Expansion (α : Type)
  | literal (l : Literal α)
  | conjunction (parts : List (List (Expr α)))

namespace Expr

def expand : Expr α → Expansion α
  | .atom a => .literal ⟨true, a⟩
  | .not (.atom a) => .literal ⟨false, a⟩
  | .not (.not a) => .conjunction [[a]]
  | .not (.and a b) => .conjunction [[.not a, .not b]]
  | .not (.or a b) => .conjunction [[.not a], [.not b]]
  | .not (.imp a b) => .conjunction [[.and a (.not b)]]
  | .not (.iff a b) => .conjunction [[a, b], [.not a, .not b]]
  | .and a b => .conjunction [[a], [b]]
  | .or a b => .conjunction [[a, b]]
  | .imp a b => .conjunction [[.or (.not a) b]]
  | .iff a b => .conjunction [[.and (.imp a b) (.imp b a)]]

def weight (positive : Bool) : Expr α → Nat
  | .atom _ => 1
  | .not a => a.weight (!positive) + 1
  | .and a b | .or a b => a.weight positive + b.weight positive + 2
  | .imp a b => a.weight (!positive) + b.weight positive + 4
  | .iff a b => a.weight true + a.weight false + b.weight true + b.weight false + 11

theorem weight_pos (positive : Bool) (e : Expr α) : 0 < e.weight positive := by
  cases e <;> simp [weight]

end Expr

def weight (members : List (Expr α)) : Nat := members.foldr (fun e n => e.weight true + n) 0

theorem weight_append_reverse (part pending : List (Expr α)) :
    weight (part.reverse ++ pending) = weight part + weight pending := by
  induction part generalizing pending with
  | nil => simp [weight]
  | cons e part ih =>
    rw [List.reverse_cons, List.append_assoc, List.singleton_append, ih]
    simp only [weight, List.foldr_cons]
    omega

def effort (parts : List (List (Expr α))) : Nat := parts.foldr (fun part n => 1 <<< weight part + n) 0

theorem effort_cons (part : List (Expr α)) (parts : List (List (Expr α))) :
    effort (part :: parts) = 1 <<< weight part + effort parts := rfl

theorem effort_append (parts parts' : List (List (Expr α))) :
    effort (parts ++ parts') = effort parts + effort parts' := by
  induction parts with
  | nil => simp [effort]
  | cons part parts ih => rw [List.cons_append, effort_cons, effort_cons, ih, Nat.add_assoc]

theorem effort_reverse (parts : List (List (Expr α))) : effort parts.reverse = effort parts := by
  induction parts with
  | nil => rfl
  | cons part parts ih =>
    rw [List.reverse_cons, effort_append, ih, effort_cons, Nat.add_comm]
    rfl

theorem one_shiftLeft_lt {m n : Nat} (h : m < n) : 1 <<< m < 1 <<< n := by
  rw [Nat.one_shiftLeft, Nat.one_shiftLeft]
  exact Nat.pow_lt_pow_right (by decide) h

theorem one_shiftLeft_add_lt {m n k : Nat} (hm : m + 2 ≤ k) (hn : n + 2 ≤ k) : 1 <<< m + 1 <<< n < 1 <<< k := by
  simp only [Nat.one_shiftLeft]
  have h1 : 2 ^ m ≤ 2 ^ (k - 2) := Nat.pow_le_pow_right (by decide) (by omega)
  have h2 : 2 ^ n ≤ 2 ^ (k - 2) := Nat.pow_le_pow_right (by decide) (by omega)
  have h3 : 2 ^ k = 2 ^ (k - 2) * 4 := by
    rw [show k = k - 2 + 2 by omega, Nat.pow_add]
    simp
  have := Nat.two_pow_pos (k - 2)
  omega

theorem effort_expand_lt {e : Expr α} {parts : List (List (Expr α))} (h : e.expand = .conjunction parts) :
    effort parts < 1 <<< e.weight true := by
  have hp := fun (a : Expr α) b => Expr.weight_pos b a
  unfold Expr.expand at h
  split at h <;> cases h <;> simp only [effort, weight, List.foldr_cons, List.foldr_nil,
    Nat.add_zero, Expr.weight, Bool.not_true, Bool.not_false]
  case h_5 a b =>
    have := hp a false
    have := hp b false
    exact one_shiftLeft_add_lt (by omega) (by omega)
  case h_7 a b => exact one_shiftLeft_add_lt (by omega) (by omega)
  case h_8 a b =>
    have := hp a true
    have := hp b true
    exact one_shiftLeft_add_lt (by omega) (by omega)
  all_goals exact one_shiftLeft_lt (by omega)

variable [Ordered α]

structure Disjunction (α : Type) [Ordered α] where
  literals : Clause α
  pending : List (Expr α)

/-- A copy of the disjunction for each part, with the part's members to be looked at next, the last
one first; the copies are in the order in which they are worked on. -/
def Disjunction.extend (literals : Clause α) (pending : List (Expr α)) (parts : List (List (Expr α))) :
    List (Disjunction α) :=
  (parts.map fun part => ⟨literals, part.reverse ++ pending⟩).reverse

theorem Disjunction.effort_extend (literals : Clause α) (pending : List (Expr α)) (parts : List (List (Expr α))) :
    effort ((extend literals pending parts).map Disjunction.pending) = effort parts <<< weight pending := by
  rw [extend, List.map_reverse, effort_reverse]
  induction parts with
  | nil => simp [effort]
  | cons part parts ih =>
    rw [List.map_cons, List.map_cons, effort_cons, effort_cons, ih, weight_append_reverse, Nat.shiftLeft_add]
    simp only [Nat.shiftLeft_eq, Nat.add_mul]

structure Progress (α : Type) [Ordered α] where
  clauses : Cnf α := ∅
  expanded : List (Expr α) := []

namespace Progress

def work (ds : List (Disjunction α)) (p : Progress α) : Progress α :=
  match ds with
  | [] => p
  | ⟨literals, []⟩ :: ds => work ds { p with clauses := p.clauses.insert literals }
  | ⟨literals, e :: pending⟩ :: ds =>
    match _h : e.expand with
    | .literal l => work (⟨literals.insert l, pending⟩ :: ds) p
    | .conjunction parts =>
      work (Disjunction.extend literals pending parts ++ ds) { p with expanded := e :: p.expanded }
termination_by effort (ds.map Disjunction.pending)
decreasing_by
  · simp only [List.map_cons, effort_cons]
    have hpos : 0 < 1 <<< weight ([] : List (Expr α)) := by
      rw [Nat.one_shiftLeft]
      exact Nat.two_pow_pos _
    omega
  · simp only [List.map_cons, effort_cons]
    have hlt := one_shiftLeft_lt (Nat.lt_add_of_pos_left (n := weight pending) (e.weight_pos true))
    exact Nat.add_lt_add_right hlt _
  · simp only [List.map_append, effort_append, List.map_cons, effort_cons, Disjunction.effort_extend]
    have hlt := Nat.mul_lt_mul_of_pos_right (effort_expand_lt _h) (Nat.two_pow_pos (weight pending))
    rw [← Nat.shiftLeft_eq, ← Nat.shiftLeft_eq, ← Nat.shiftLeft_add] at hlt
    exact Nat.add_lt_add_right hlt _

end Progress

structure Conversion (α : Type) [Ordered α] where
  found : Cnf α
  expanded : List (Expr α)

namespace Conversion

def cnf (c : Conversion α) : Cnf α := c.found.minimal

def dropped (c : Conversion α) : Nat := c.found.size - c.cnf.size

end Conversion

namespace Expr

def convert (e : Expr α) : Conversion α :=
  let p := Progress.work [⟨∅, [e]⟩] {}
  ⟨p.clauses, p.expanded.reverse⟩

def toCnf (e : Expr α) : Cnf α := e.convert.cnf

end Expr

end PseudoBoolean
