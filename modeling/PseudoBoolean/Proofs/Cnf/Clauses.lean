import PseudoBoolean.Cnf.Conversion
import PseudoBoolean.Proofs.OrderedSet
import Mathlib.Data.Set.Sups

namespace PseudoBoolean

open scoped SetFamily

variable {α : Type} [Ordered α]

namespace Expr

/-- The clauses that an expression, or its negation if the polarity is false, multiplies out to. -/
def clauses : Bool → Expr α → Set (Clause α)
  | positive, .atom a => {.ofList [⟨positive, a⟩]}
  | positive, .not a => a.clauses !positive
  | true, .and a b => a.clauses true ∪ b.clauses true
  | false, .and a b => a.clauses false ⊻ b.clauses false
  | true, .or a b => a.clauses true ⊻ b.clauses true
  | false, .or a b => a.clauses false ∪ b.clauses false
  | true, .imp a b => a.clauses false ⊻ b.clauses true
  | false, .imp a b => a.clauses true ∪ b.clauses false
  | true, .iff a b => a.clauses false ⊻ b.clauses true ∪ b.clauses false ⊻ a.clauses true
  | false, .iff a b => a.clauses true ⊻ b.clauses true ∪ a.clauses false ⊻ b.clauses false

end Expr

def product : List (Expr α) → Set (Clause α)
  | [] => {⊥}
  | e :: es => e.clauses true ⊻ product es

theorem product_singleton (e : Expr α) : product [e] = e.clauses true := by
  simp [product]

theorem product_pair (e f : Expr α) : product [e, f] = e.clauses true ⊻ f.clauses true := by
  simp [product]

theorem product_append (es fs : List (Expr α)) : product (es ++ fs) = product es ⊻ product fs := by
  induction es with
  | nil => simp [product]
  | cons e es ih => rw [List.cons_append, product, product, ih, Set.sups_assoc]

theorem product_reverse (es : List (Expr α)) : product es.reverse = product es := by
  induction es with
  | nil => rfl
  | cons e es ih =>
    rw [List.reverse_cons, product_append, ih, product_singleton, product, Set.sups_comm]

theorem Expr.clauses_of_literal {e : Expr α} {l : Literal α} (h : e.expand = .literal l) :
    e.clauses true = {.ofList [l]} := by
  unfold expand at h
  split at h <;> cases h <;> rfl

theorem Expr.clauses_of_conjunction {e : Expr α} {parts : List (List (Expr α))}
    (h : e.expand = .conjunction parts) (c : Clause α) :
    c ∈ e.clauses true ↔ ∃ part ∈ parts, c ∈ product part := by
  unfold expand at h
  split at h <;> cases h <;> simp [product_singleton, product_pair, clauses]

def Disjunction.clauses (d : Disjunction α) : Set (Clause α) := {d.literals} ⊻ product d.pending

theorem Disjunction.clauses_finished (literals : Clause α) :
    clauses ⟨literals, []⟩ = {literals} := by
  simp [clauses, product]

theorem Disjunction.clauses_literal {e : Expr α} {l : Literal α} (h : e.expand = .literal l)
    (literals : Clause α) (pending : List (Expr α)) :
    clauses ⟨literals, e :: pending⟩ = clauses ⟨literals.insert l, pending⟩ := by
  rw [clauses, clauses, product, Expr.clauses_of_literal h, ← Set.sups_assoc, Set.singleton_sups_singleton,
    OrderedSet.insert_eq_sup]

theorem Disjunction.clauses_extend {e : Expr α} {parts : List (List (Expr α))}
    (h : e.expand = .conjunction parts) (literals : Clause α) (pending : List (Expr α)) (c : Clause α) :
    (∃ d ∈ extend literals pending parts, c ∈ d.clauses) ↔ c ∈ clauses ⟨literals, e :: pending⟩ := by
  have hpart (part : List (Expr α)) : clauses ⟨literals, part.reverse ++ pending⟩ =
      {literals} ⊻ product pending ⊻ product part := by
    rw [clauses, product_append, product_reverse, Set.sups_assoc, Set.sups_comm (s := product pending)]
  have hmember : clauses ⟨literals, e :: pending⟩ = {literals} ⊻ product pending ⊻ e.clauses true := by
    rw [clauses, product, Set.sups_assoc, Set.sups_comm (s := product pending)]
  simp only [extend, List.mem_reverse, List.mem_map, exists_exists_and_eq_and, hpart, hmember]
  constructor
  · rintro ⟨part, hp, hc⟩
    obtain ⟨a, ha, b, hb, rfl⟩ := Set.mem_sups.mp hc
    exact Set.sup_mem_sups ha ((Expr.clauses_of_conjunction h b).mpr ⟨part, hp, hb⟩)
  · intro hc
    obtain ⟨a, ha, b, hb, rfl⟩ := Set.mem_sups.mp hc
    obtain ⟨part, hp, hb⟩ := (Expr.clauses_of_conjunction h b).mp hb
    exact ⟨part, hp, Set.sup_mem_sups ha hb⟩

end PseudoBoolean
