import PseudoBoolean.Proofs.Cnf.Valuation

namespace PseudoBoolean

variable {α : Type} [Ordered α]

namespace Clause

theorem eval_of_le {I : Interpretation α} {c d : Clause α} (h : c ≤ d) (hc : c.eval I = true) :
    d.eval I = true := by
  obtain ⟨l, hl, ht⟩ := eval_iff.mp hc
  exact eval_iff.mpr ⟨l, h l hl, ht⟩

end Clause

namespace Cnf

theorem exists_mem_minimal_le {f : Cnf α} {c : Clause α} (h : c ∈ f) : ∃ d ∈ f.minimal, d ≤ c := by
  obtain ⟨d, hle, hd⟩ := exists_minimal_le_of_wellFoundedLT (· ∈ f) c h
  exact ⟨d, mem_minimal_iff.mpr hd, hle⟩

theorem eval_minimal (I : Interpretation α) (f : Cnf α) : f.minimal.eval I = f.eval I := by
  rw [Bool.eq_iff_iff, eval_iff, eval_iff]
  constructor
  · intro h c hc
    obtain ⟨d, hd, hle⟩ := exists_mem_minimal_le hc
    exact Clause.eval_of_le hle (h d hd)
  · intro h c hc
    exact h c (mem_minimal.mp hc).1

end Cnf

omit [Ordered α] in
theorem Expr.value_eval (I : Interpretation α) (e : Expr α) (positive : Bool) :
    e.value (Literal.eval I) positive = (e.eval I == positive) := by
  induction e generalizing positive with
  | atom a => rfl
  | not a ih =>
    rw [value, ih, eval]
    cases a.eval I <;> cases positive <;> rfl
  | and a b iha ihb | or a b iha ihb | imp a b iha ihb | iff a b iha ihb =>
    cases positive <;> simp only [value, iha, ihb, eval] <;> cases a.eval I <;> cases b.eval I <;> rfl

def Holds (I : Interpretation α) (s : Set (Clause α)) : Prop := ∀ c ∈ s, c.eval I = true

theorem holds_iff_satisfied (I : Interpretation α) (s : Set (Clause α)) :
    Holds I s ↔ Satisfied (Literal.eval I) s := by
  simp only [Holds, Satisfied, Clause.eval_iff]

theorem Expr.holds_clauses (I : Interpretation α) (e : Expr α) (positive : Bool) :
    Holds I (e.clauses positive) ↔ e.eval I = positive := by
  rw [holds_iff_satisfied, satisfied_clauses, value_eval, beq_iff_eq]

theorem Expr.eval_found (I : Interpretation α) (e : Expr α) : e.convert.found.eval I = e.eval I := by
  rw [Bool.eq_iff_iff, Cnf.eval_iff, ← holds_clauses I e true]
  simp only [mem_found, Holds]

theorem Expr.eval_toCnf (I : Interpretation α) (e : Expr α) : e.toCnf.eval I = e.eval I := by
  rw [toCnf, Conversion.cnf, Cnf.eval_minimal, eval_found]

end PseudoBoolean
