import PseudoBoolean.Proofs.Cnf.Rewriting

/-!
Valuations that give every literal a value of its own. Under such a valuation an atom and its negation may
both be true, or both be false, so a clause with both of them is no tautology. Multiplying out, and dropping
the clauses that are not minimal, keep the value of an expression even so.
-/

namespace PseudoBoolean

open scoped SetFamily

variable {α : Type}

namespace Expr

def value (v : Literal α → Bool) : Bool → Expr α → Bool
  | positive, .atom a => v ⟨positive, a⟩
  | positive, .not a => a.value v !positive
  | true, .and a b => a.value v true && b.value v true
  | false, .and a b => a.value v false || b.value v false
  | true, .or a b => a.value v true || b.value v true
  | false, .or a b => a.value v false && b.value v false
  | true, .imp a b => a.value v false || b.value v true
  | false, .imp a b => a.value v true && b.value v false
  | true, .iff a b => (a.value v false || b.value v true) && (b.value v false || a.value v true)
  | false, .iff a b => (a.value v true || b.value v true) && (a.value v false || b.value v false)

end Expr

variable [Ordered α]

def Satisfied (v : Literal α → Bool) (s : Set (Clause α)) : Prop := ∀ c ∈ s, ∃ l ∈ c, v l = true

theorem satisfied_union (v : Literal α → Bool) (s t : Set (Clause α)) :
    Satisfied v (s ∪ t) ↔ Satisfied v s ∧ Satisfied v t := by
  simp only [Satisfied, Set.mem_union, or_imp, forall_and]

theorem satisfied_sups (v : Literal α → Bool) (s t : Set (Clause α)) :
    Satisfied v (s ⊻ t) ↔ Satisfied v s ∨ Satisfied v t := by
  simp only [Satisfied, Set.forall_sups_iff, OrderedSet.mem_sup, or_and_right, exists_or]
  constructor
  · intro h
    -- a false clause of `s` makes its union with every clause of `t` rest on the latter
    by_contra hne
    obtain ⟨⟨c, hc, hfc⟩, d, hd, hfd⟩ := by simpa only [not_or, not_forall, exists_prop] using hne
    exact (h c hc d hd).elim hfc hfd
  · rintro (h | h) c hc d hd
    · exact .inl (h c hc)
    · exact .inr (h d hd)

theorem Expr.satisfied_clauses (v : Literal α → Bool) (e : Expr α) (positive : Bool) :
    Satisfied v (e.clauses positive) ↔ e.value v positive = true := by
  induction e generalizing positive with
  | atom a => simp [clauses, Satisfied, value]
  | not a ih => rw [clauses, ih, value]
  | and a b iha ihb | or a b iha ihb | imp a b iha ihb | iff a b iha ihb =>
    cases positive <;>
      simp only [clauses, satisfied_union, satisfied_sups, iha, ihb, value, Bool.and_eq_true, Bool.or_eq_true]

theorem satisfied_minimal (v : Literal α → Bool) (s : Set (Clause α)) :
    Satisfied v {c | Minimal (· ∈ s) c} ↔ Satisfied v s := by
  constructor
  · intro h c hc
    obtain ⟨d, hle, hd⟩ := exists_minimal_le_of_wellFoundedLT (· ∈ s) c hc
    obtain ⟨l, hl, hv⟩ := h d hd
    exact ⟨l, hle l hl, hv⟩
  · intro h c hc
    exact h c hc.prop

theorem Expr.satisfied_toCnf (v : Literal α → Bool) (e : Expr α) :
    Satisfied v {c | c ∈ e.toCnf} ↔ e.value v true = true := by
  simp only [mem_toCnf]
  rw [satisfied_minimal, satisfied_clauses]

end PseudoBoolean
