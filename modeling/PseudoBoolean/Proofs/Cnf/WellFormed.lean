import PseudoBoolean.Proofs.Cnf.Valuation

namespace PseudoBoolean

variable {α : Type}

theorem literals?_map_toExpr (ls : List (Literal α)) : literals? (ls.map Literal.toExpr) = .ok ls := by
  induction ls with
  | nil => rfl
  | cons l ls ih =>
    rw [List.map_cons, literals?, Literal.literal?_toExpr]
    simp only [ih]
    rfl

variable [Ordered α]

theorem compare_map_toExpr (ls ms : List (Literal α)) :
    compare (ls.map Literal.toExpr) (ms.map Literal.toExpr) = compare ls ms := by
  induction ls generalizing ms with
  | nil => cases ms <;> rfl
  | cons l ls ih =>
    cases ms with
    | nil => rfl
    | cons m ms =>
      have hlm : compare l.toExpr m.toExpr = compare l m := rfl
      simp only [List.map_cons, List.compare_cons_cons, ih, hlm]

namespace Clause

theorem allLiterals_exprs (c : Clause α) : allLiterals c.exprs = true := by
  simp [allLiterals, exprs, Expr.isLiteral]

theorem ofExprs?_exprs (c : Clause α) : ofExprs? c.exprs = .ok c := by
  have hlist : OrderedSet.ofList c.toList = c := by
    apply OrderedSet.ext_mem
    intro l
    rw [OrderedSet.mem_ofList, OrderedSet.mem_def]
  rw [ofExprs?, exprs, literals?_map_toExpr]
  exact congrArg Except.ok hlist

theorem pairwise_exprs (c : Clause α) : c.exprs.Pairwise fun m n => compare m n = .lt :=
  List.pairwise_map.mpr c.increasing

end Clause

theorem Cnf.pairwise_exprs (f : Cnf α) : (f.toList.map Clause.exprs).Pairwise fun c d => compare c d = .lt := by
  rw [List.pairwise_map]
  apply f.increasing.imp
  intro c d h
  rwa [Clause.exprs, Clause.exprs, compare_map_toExpr, ← OrderedSet.compare_def]

theorem Cnf.eq_of_mem_minimal {f : Cnf α} {c d : Clause α} (hc : c ∈ f.minimal) (hd : d ∈ f.minimal) (h : c ≤ d) :
    c = d :=
  (mem_minimal_iff.mp hd).eq_of_le (mem_minimal_iff.mp hc).prop h

namespace Expr

omit [Ordered α] in
theorem value_const (b : Bool) (e : Expr α) (positive : Bool) : e.value (fun _ => b) positive = b := by
  induction e generalizing positive with
  | atom a => rfl
  | not a ih => exact ih _
  | and a b iha ihb | or a b iha ihb | imp a b iha ihb | iff a b iha ihb =>
    cases positive <;> simp only [value, iha, ihb, Bool.and_self, Bool.or_self]

theorem toCnf_isEmpty (e : Expr α) : e.toCnf.isEmpty = false := by
  -- a conjunction of no clauses would be true even if all literals are false
  apply Bool.eq_false_iff.mpr
  intro hempty
  have hnil : e.toCnf.toList = [] := List.isEmpty_iff.mp hempty
  have hsat : Satisfied (fun _ => false) {c | c ∈ e.toCnf} := by
    intro c hc
    rw [Set.mem_ofPred_eq, OrderedSet.mem_def, hnil] at hc
    cases hc
  rw [satisfied_toCnf, value_const] at hsat
  cases hsat

theorem isEmpty_of_mem_toCnf {e : Expr α} {c : Clause α} (hc : c ∈ e.toCnf) : c.isEmpty = false := by
  have hsat : Satisfied (fun _ => true) {c | c ∈ e.toCnf} := by rw [satisfied_toCnf, value_const]
  obtain ⟨l, hl, -⟩ := hsat c hc
  exact List.isEmpty_eq_false_iff.mpr (List.ne_nil_of_mem hl)

theorem toCnf_wellFormed (e : Expr α) :
    e.toCnf.isEmpty = false ∧
    (∀ c ∈ e.toCnf, c.isEmpty = false ∧ allLiterals c.exprs = true ∧ literals? c.exprs = .ok c.toList ∧
      Clause.ofExprs? c.exprs = .ok c ∧ c.exprs.Pairwise fun m n => compare m n = .lt) ∧
    ((e.toCnf.toList.map Clause.exprs).Pairwise fun c d => compare c d = .lt) ∧
    ∀ c ∈ e.toCnf, ∀ d ∈ e.toCnf, c.isSubset d = true → c = d := by
  refine ⟨e.toCnf_isEmpty, fun c hc => ?_, Cnf.pairwise_exprs _, fun c hc d hd h => ?_⟩
  · exact ⟨isEmpty_of_mem_toCnf hc, c.allLiterals_exprs, literals?_map_toExpr _, c.ofExprs?_exprs, c.pairwise_exprs⟩
  · exact Cnf.eq_of_mem_minimal hc hd (OrderedSet.isSubset_iff.mp h)

theorem toCnf_wellFormed_tautology :
    let e : Expr Nat := .or (.var 0) (.not (.var 0))
    let c : Clause Nat := .ofList [⟨true, .plain 0⟩, ⟨false, .plain 0⟩]
    c ∈ e.toCnf ∧ c.isEmpty = false ∧ allLiterals c.exprs = true ∧ literals? c.exprs = .ok c.toList ∧
      Clause.ofExprs? c.exprs = .ok c ∧ (c.exprs.Pairwise fun m n => compare m n = .lt) ∧
      ∀ d ∈ e.toCnf, c.isSubset d = true → c = d := by
  intro e c
  have hclauses : e.clauses true = {c} := by
    simp only [e, clauses, var]
    rw [Set.singleton_sups_singleton]
    rfl
  have hc : c ∈ e.toCnf := by
    rw [mem_toCnf, hclauses]
    exact ⟨rfl, fun d hd _ => hd ▸ le_rfl⟩
  obtain ⟨-, hmember, -, hsubset⟩ := e.toCnf_wellFormed
  obtain ⟨hne, hall, hview, hchecked, hsorted⟩ := hmember c hc
  exact ⟨hc, hne, hall, hview, hchecked, hsorted, hsubset c hc⟩

end Expr

end PseudoBoolean
