import PseudoBoolean.Proofs.Cnf.WellFormed

namespace PseudoBoolean

variable {α β : Type}

structure OrdersTotally (cmp : β → β → Ordering) : Prop where
  swap : ∀ a b, cmp b a = (cmp a b).swap
  trans : ∀ a b c o, cmp a b = o → cmp b c = o → cmp a c = o
  eq_iff : ∀ a b, cmp a b = .eq ↔ a = b

section

variable [Ordered β]

theorem ordersTotally_compare : OrdersTotally (compare : β → β → Ordering) where
  swap _ _ := Std.OrientedCmp.eq_swap
  trans a b c o hab hbc := by
    cases o with
    | lt => exact Std.TransCmp.lt_trans hab hbc
    | eq => exact Std.TransCmp.eq_trans hab hbc
    | gt => exact Std.TransCmp.gt_trans hab hbc
  eq_iff _ _ := Std.LawfulEqOrd.compare_eq_iff_eq

theorem compare_then_eq_lt (a b : β) (o : Ordering) :
    (compare a b).then o = .lt ↔ compare a b = .lt ∨ a = b ∧ o = .lt := by
  rw [Ordering.then_eq_lt, Std.LawfulEqOrd.compare_eq_iff_eq]

theorem compare_eq_lt_iff_lex (s t : List β) :
    compare s t = .lt ↔ List.Lex (fun a b => compare a b = .lt) s t := by
  induction s generalizing t with
  | nil =>
    cases t with
    | nil => simp
    | cons b t => simp
  | cons a s ih =>
    cases t with
    | nil => simp
    | cons b t => rw [List.compare_cons_cons, compare_then_eq_lt, ih, List.cons_lex_cons_iff]

end

namespace Expr

inductive Kind
  | var
  | not
  | and
  | or
  | imp
  | iff
  | one
  | all
deriving DecidableEq

def Kind.ascending : List Kind := [.var, .not, .and, .or, .imp, .iff, .one, .all]

inductive Field (α : Type)
  | label (a : α)
  | operand (e : Expr α)

def kind : Expr α → Kind
  | .atom (.plain _) => .var
  | .not _ => .not
  | .and _ _ => .and
  | .or _ _ => .or
  | .imp _ _ => .imp
  | .iff _ _ => .iff
  | .atom (.one _) => .one
  | .atom (.all _) => .all

def fields : Expr α → List (Field α)
  | .atom (.plain a) => [.label a]
  | .not a => [.operand a]
  | .and a b | .or a b | .imp a b | .iff a b => [.operand a, .operand b]
  | .atom (.one r) | .atom (.all r) => [.label r.element, .label r.set]

theorem rank_eq_idxOf (e : Expr α) : e.rank = Kind.ascending.idxOf e.kind := by
  rcases e with (_ | _ | _) | _ | _ | _ | _ | _ <;> rfl

theorem Kind.idxOf_lt_idxOf_iff (k l : Kind) :
    ascending.idxOf k < ascending.idxOf l ↔ [k, l].Sublist ascending := by
  cases k <;> cases l <;> decide

variable [Ordered α]

def Field.Less : Field α → Field α → Prop
  | .label a, .label b => compare a b = .lt
  | .operand a, .operand b => a.cmp b = .lt
  | _, _ => False

theorem lex_single (x y : Field α) : List.Lex Field.Less [x] [y] ↔ x.Less y := by
  simp [List.cons_lex_cons_iff]

theorem lex_range (r s : Range α) :
    List.Lex Field.Less [.label r.element, .label r.set] [.label s.element, .label s.set] ↔ compare r s = .lt := by
  rw [Range.compare_def, compare_then_eq_lt]
  simp [List.cons_lex_cons_iff, Field.Less]

theorem lex_operands (a b c d : Expr α) :
    List.Lex Field.Less [.operand a, .operand b] [.operand c, .operand d] ↔ (a.cmp c).then (b.cmp d) = .lt := by
  -- on expressions `compare` is `cmp`, which `rw` does not see through
  have hthen : (a.cmp c).then (b.cmp d) = .lt ↔ a.cmp c = .lt ∨ a = c ∧ b.cmp d = .lt :=
    compare_then_eq_lt a c (b.cmp d)
  rw [hthen]
  simp [List.cons_lex_cons_iff, Field.Less]

theorem cmp_eq_lt_of_kind_eq {e f : Expr α} (h : e.kind = f.kind) :
    e.cmp f = .lt ↔ List.Lex Field.Less e.fields f.fields := by
  -- of the 64 pairs of shapes the eight with one kind are left
  rcases e with (a | r | r) | a | ⟨a, b⟩ | ⟨a, b⟩ | ⟨a, b⟩ | ⟨a, b⟩ <;>
    rcases f with (c | s | s) | c | ⟨c, d⟩ | ⟨c, d⟩ | ⟨c, d⟩ | ⟨c, d⟩ <;> cases h
  case atom.plain.atom.plain => exact (lex_single (.label a) (.label c)).symm
  case atom.one.atom.one | atom.all.atom.all => exact (lex_range r s).symm
  case not.not => exact (lex_single (.operand a) (.operand c)).symm
  case and.and | or.or | imp.imp | iff.iff => exact (lex_operands a b c d).symm

theorem cmp_of_kind_ne {e f : Expr α} (h : e.kind ≠ f.kind) : e.cmp f = compare e.rank f.rank := by
  rcases e with (_ | _ | _) | _ | _ | _ | _ | _ <;> rcases f with (_ | _ | _) | _ | _ | _ | _ | _
  case atom.plain.atom.plain | atom.one.atom.one | atom.all.atom.all | not.not | and.and | or.or | imp.imp | iff.iff =>
    exact absurd rfl h
  all_goals rfl

theorem cmp_eq_lt_iff (e f : Expr α) :
    e.cmp f = .lt ↔ [e.kind, f.kind].Sublist Kind.ascending ∨
      e.kind = f.kind ∧ List.Lex Field.Less e.fields f.fields := by
  rw [← Kind.idxOf_lt_idxOf_iff, ← rank_eq_idxOf, ← rank_eq_idxOf]
  by_cases h : e.kind = f.kind
  · have hrank : e.rank = f.rank := by rw [rank_eq_idxOf, rank_eq_idxOf, h]
    simp [cmp_eq_lt_of_kind_eq h, h, hrank]
  · rw [cmp_of_kind_ne h, Nat.compare_eq_lt]
    simp [h]

end Expr

variable [Ordered α]

theorem Clause.compare_eq_lt_iff (c d : Clause α) :
    compare c d = .lt ↔ List.Lex (fun m n => m.cmp n = .lt) c.exprs d.exprs := by
  rw [OrderedSet.compare_def, ← compare_map_toExpr]
  exact compare_eq_lt_iff_lex c.exprs d.exprs

theorem structuralOrder_total :
    OrdersTotally (Expr.cmp : Expr α → Expr α → Ordering) ∧
    (∀ e f : Expr α, e.cmp f = .lt ↔ [e.kind, f.kind].Sublist Expr.Kind.ascending ∨
      e.kind = f.kind ∧ List.Lex Expr.Field.Less e.fields f.fields) ∧
    OrdersTotally (compare : Clause α → Clause α → Ordering) ∧
    (∀ c : Clause α, c.exprs.Pairwise fun m n => m.cmp n = .lt) ∧
    ∀ c d : Clause α, compare c d = .lt ↔ List.Lex (fun m n => m.cmp n = .lt) c.exprs d.exprs :=
  ⟨ordersTotally_compare, Expr.cmp_eq_lt_iff, ordersTotally_compare, Clause.pairwise_exprs, Clause.compare_eq_lt_iff⟩

theorem structuralOrder_total_chain :
    let e : Expr Nat := .and (.var 1) (.var 2)
    let f : Expr Nat := .and (.var 1) (.not (.var 0))
    let g : Expr Nat := .one 0 0
    let b : Clause Nat := .ofList [⟨true, .plain 0⟩]
    let c : Clause Nat := .ofList [⟨false, .plain 0⟩, ⟨true, .plain 0⟩]
    let d : Clause Nat := .ofList [⟨true, .plain 1⟩]
    (e.cmp f = .lt ∧ f.cmp g = .lt ∧ e.cmp g = .lt ∧ g.cmp e = .gt) ∧
    compare b c = .lt ∧ compare c d = .lt ∧ compare b d = .lt := by
  intro e f g b c d
  obtain ⟨hexpr, -, hclause, -⟩ := structuralOrder_total (α := Nat)
  have hef : e.cmp f = .lt := by decide
  have hfg : f.cmp g = .lt := by decide
  have heg := hexpr.trans e f g .lt hef hfg
  have hge : g.cmp e = .gt := by
    rw [hexpr.swap e g, heg]
    rfl
  have hbc : compare b c = .lt := by decide
  have hcd : compare c d = .lt := by decide
  exact ⟨⟨hef, hfg, heg, hge⟩, hbc, hcd, hclause.trans b c d .lt hbc hcd⟩

end PseudoBoolean
