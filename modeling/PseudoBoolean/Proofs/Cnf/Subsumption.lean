import PseudoBoolean.Proofs.Cnf.Canonical
import PseudoBoolean.Proofs.Cnf.Meaning

/-!
Dropping the clauses that have a strict part in the same normal form. All clauses are judged against the
normal form as it was, so the part may be dropped as well; but below it there is one that is kept. Conversion
may therefore drop clauses early: the normal forms of the operands of a connective, already reduced, give the
normal form of the whole. Clauses are ordered by inclusion, and `<` is strict inclusion.
-/

namespace PseudoBoolean

open scoped SetFamily

variable {α : Type} [Ordered α]

namespace Cnf

theorem isMinimal_iff {f : Cnf α} : f.isMinimal = true ↔ f.minimal = f := by
  rw [isMinimal, List.all_eq_true]
  constructor
  · intro h
    exact OrderedSet.ext (List.filter_eq_self.mpr h)
  · intro h c hc
    rw [← OrderedSet.mem_def, ← h, mem_minimal] at hc
    simp [hc.2]

theorem isMinimal_minimal (f : Cnf α) : f.minimal.isMinimal = true := by
  rw [isMinimal_iff]
  apply OrderedSet.ext_mem
  intro c
  rw [mem_minimal, and_iff_left_iff_imp, ← Bool.not_eq_true, subsumes_iff_lt]
  rintro hc ⟨d, hd, hlt⟩
  exact (mem_minimal_iff.mp hc).not_lt (mem_minimal.mp hd).1 hlt

theorem exists_mem_minimal_lt {f : Cnf α} {c : Clause α} (hc : c ∈ f) (hdropped : c ∉ f.minimal) :
    ∃ d ∈ f.minimal, d < c := by
  obtain ⟨d, hd, hle⟩ := exists_mem_minimal_le hc
  refine ⟨d, hd, lt_of_le_of_ne hle ?_⟩
  rintro rfl
  exact hdropped hd

theorem minimal_drops_exactly_subsumed (f : Cnf α) :
    (∀ c, c ∈ f.minimal ↔ c ∈ f ∧ ¬ ∃ d ∈ f, d < c) ∧
    (∀ c ∈ f, c ∉ f.minimal → ∃ d ∈ f.minimal, d < c) ∧
    f.minimal.isMinimal = true ∧
    f.minimal.minimal = f.minimal ∧
    ∀ I : Interpretation α, f.minimal.eval I = f.eval I := by
  refine ⟨fun c => ?_, fun c => exists_mem_minimal_lt, f.isMinimal_minimal, ?_, fun I => eval_minimal I f⟩
  · rw [mem_minimal, ← Bool.not_eq_true, subsumes_iff_lt]
  · exact isMinimal_iff.mp f.isMinimal_minimal

theorem minimal_drops_exactly_subsumed_chain :
    let c₁ : Clause Nat := .ofList [⟨true, .plain 0⟩]
    let c₂ : Clause Nat := c₁.insert ⟨false, .plain 1⟩
    let c₃ : Clause Nat := c₂.insert ⟨true, .all ⟨2, 3⟩⟩
    let f : Cnf Nat := .ofList [c₁, c₂, c₃]
    c₂ ∉ f.minimal ∧ c₃ ∈ f ∧ c₃ ∉ f.minimal ∧ ∃ d ∈ f.minimal, d < c₃ := by
  intro c₁ c₂ c₃ f
  have hc₂ : c₂ ∉ f.minimal := by decide
  have hc₃ : c₃ ∈ f := by decide
  have hdropped : c₃ ∉ f.minimal := by decide
  exact ⟨hc₂, hc₃, hdropped, f.minimal_drops_exactly_subsumed.2.1 c₃ hc₃ hdropped⟩

def distribute (f g : Cnf α) : Cnf α := .ofList (f.toList.flatMap fun c => g.toList.map (c ⊔ ·))

theorem mem_distribute {f g : Cnf α} {c : Clause α} :
    c ∈ f.distribute g ↔ c ∈ {c | c ∈ f} ⊻ {c | c ∈ g} := by
  rw [distribute, OrderedSet.mem_ofList]
  simp [Set.mem_sups, OrderedSet.mem_def]

end Cnf

theorem Expr.toCnf_eq_minimal {e : Expr α} {f : Cnf α}
    (h : ∀ v, Satisfied v {c | c ∈ f} ↔ e.value v true = true) : e.toCnf = f.minimal := by
  apply OrderedSet.ext_mem
  intro c
  rw [mem_toCnf, Cnf.mem_minimal_iff]
  apply minimal_iff_of_satisfied.mpr
  intro v
  rw [satisfied_clauses, ← h]
  rfl

theorem Expr.toCnf_of_operands (a b : Expr α) :
    (Expr.and a b).toCnf = (a.toCnf ⊔ b.toCnf).minimal ∧
    (Expr.or a b).toCnf = (a.toCnf.distribute b.toCnf).minimal := by
  constructor
  · apply toCnf_eq_minimal
    intro v
    have hmem : {c | c ∈ a.toCnf ⊔ b.toCnf} = {c | c ∈ a.toCnf} ∪ {c | c ∈ b.toCnf} := by
      ext c
      exact OrderedSet.mem_sup
    rw [hmem, satisfied_union, satisfied_toCnf, satisfied_toCnf, value, Bool.and_eq_true]
  · apply toCnf_eq_minimal
    intro v
    have hmem : {c | c ∈ a.toCnf.distribute b.toCnf} = {c | c ∈ a.toCnf} ⊻ {c | c ∈ b.toCnf} := by
      ext c
      exact Cnf.mem_distribute
    rw [hmem, satisfied_sups, satisfied_toCnf, satisfied_toCnf, value, Bool.or_eq_true]

end PseudoBoolean
