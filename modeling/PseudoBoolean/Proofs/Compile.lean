import PseudoBoolean.Compile
import PseudoBoolean.Proofs.Cnf.Meaning
import PseudoBoolean.Proofs.Cnf.Polarity
import PseudoBoolean.Proofs.Constraint.Faithful

/-!
The constraints of a compiled text hold exactly if its expression is true, provided that the elements of
the expression have names of their own. If atoms share an element and its set, the clauses that go through
that set for two literals are lost, and the constraints say what the other clauses say.
-/

namespace PseudoBoolean

variable {α : Type} [Ordered α]

/-- Different atoms over sets have different elements, and no variable has the name of an element. -/
structure Expr.Separated (e : Expr α) : Prop where
  elements : ∀ a ∈ e.leaves, ∀ b ∈ e.leaves, a ≠ b → ∀ r ∈ a.range?, ∀ s ∈ b.range?, r.element ≠ s.element
  labels : ∀ a ∈ e.leaves, ∀ r ∈ a.range?, r.element ∉ e.vars

/-- Every element ranges over one set, and no variable has the name of an element. -/
structure Expr.Coherent (e : Expr α) : Prop where
  sets : ∀ a ∈ e.leaves, ∀ b ∈ e.leaves, ∀ r ∈ a.range?, ∀ s ∈ b.range?, r.element = s.element → r.set = s.set
  labels : ∀ a ∈ e.leaves, ∀ r ∈ a.range?, r.element ∉ e.vars

theorem Expr.Coherent.separated {e : Expr α} (he : e.Coherent) {c : Clause α}
    (hc : ∀ l ∈ c, l.atom ∈ e.leaves) (hclash : ¬ c.Clashes) : c.Separated where
  elements l hl m hm r hr s hs hrs := by
    have hset : r.set = s.set := he.sets _ (hc l hl) _ (hc m hm) r (Literal.range?_of_quantified? hr)
      s (Literal.range?_of_quantified? hs) hrs
    obtain rfl : r = s := by
      cases r
      cases s
      simp_all
    rcases Literal.quantified?_eq_some.mp hr with rfl | rfl <;>
      rcases Literal.quantified?_eq_some.mp hs with rfl | rfl
    · rfl
    · exact absurd ⟨r, hl, hm⟩ hclash
    · exact absurd ⟨r, hm, hl⟩ hclash
    · rfl
  labels l hl m hm r hr ha := by
    apply he.labels _ (hc l hl) r (Literal.range?_of_quantified? hr)
    exact mem_vars.mpr (ha ▸ hc m hm)

theorem Expr.Separated.coherent {e : Expr α} (he : e.Separated) : e.Coherent where
  sets a ha b hb r hr s hs hrs := by
    by_cases hab : a = b
    · subst hab
      rw [Option.some.inj (Eq.trans (Eq.symm hr) hs)]
    · exact absurd hrs (he.elements a ha b hb hab r hr s hs)
  labels := he.labels

theorem Expr.Separated.not_clashes {e : Expr α} (he : e.Separated) {c : Clause α}
    (hc : ∀ l ∈ c, l.atom ∈ e.leaves) : ¬ c.Clashes := by
  rintro ⟨r, hone, hall⟩
  exact he.elements _ (hc _ hone) _ (hc _ hall) (by simp) r rfl r rfl rfl

theorem Expr.Coherent.forall_holds_iff {e : Expr α} (he : e.Coherent) (I : Interpretation α) :
    (∀ k ∈ e.toCnf.constraints, k.holds I = true) ↔ ∀ c ∈ e.toCnf, ¬ c.Clashes → c.eval I = true := by
  rw [Cnf.constraints, List.forall_mem_map]
  apply forall₂_congr
  intro c hc
  by_cases hclash : c.Clashes
  · simp [hclash, Constraint.holds_of_clashes hclash I]
  · rw [Constraint.holds_ofClause (he.separated (atom_mem_leaves_of_toCnf hc) hclash) I]
    exact ⟨fun h _ => h, fun h => h hclash⟩

theorem Expr.constraints_toCnf_iff {e : Expr α} (he : e.Separated) (I : Interpretation α) :
    (∀ k ∈ e.toCnf.constraints, k.holds I = true) ↔ e.toCnf.eval I = true := by
  rw [he.coherent.forall_holds_iff, Cnf.eval_iff]
  apply forall₂_congr
  intro c hc
  have hclash := he.not_clashes (atom_mem_leaves_of_toCnf hc)
  exact ⟨fun h => h hclash, fun h _ => h⟩

theorem compile_ok_iff {source : String} {c : Compiled} :
    compile source = .ok c ↔ ∃ e, Expr.parse source = .ok e ∧ c = .ofExpr e := by
  cases h : Expr.parse source <;> simp [compile, h, eq_comm]

theorem compile_constraints_iff {source : String} {c : Compiled} (hc : compile source = .ok c)
    (hs : c.expression.Separated) (I : Interpretation String) :
    (∀ k ∈ c.constraints, k.holds I = true) ↔ c.expression.eval I = true := by
  obtain ⟨e, -, rfl⟩ := compile_ok_iff.mp hc
  change (∀ k ∈ e.toCnf.constraints, k.holds I = true) ↔ e.eval I = true
  have he : e.Separated := hs
  rw [Expr.constraints_toCnf_iff he, Expr.toCnf, Conversion.cnf, Cnf.eval_minimal, Expr.eval_found]

theorem compile_constraints_iff_repeated_member :
    let c : Compiled := .ofExpr (.or (.not (.all "x" "X")) (.and (.var "b") (.one "y" "Y")))
    let I : Interpretation String := ⟨fun a => a == "p" || a == "b", fun s => if s == "X" then ["p", "q", "p"] else []⟩
    compile "!(all x in X) | (b & one y in Y)" = .ok c ∧ c.expression.Separated ∧
      ((∀ k ∈ c.constraints, k.holds I = true) ↔ c.expression.eval I = true) := by
  intro c I
  have hc : compile "!(all x in X) | (b & one y in Y)" = .ok c := compile_ok_iff.mpr ⟨_, by decide +kernel, rfl⟩
  have hs : c.expression.Separated := ⟨by decide, by decide +kernel⟩
  exact ⟨hc, hs, compile_constraints_iff hc hs I⟩

theorem compile_constraints_of_coherent {source : String} {c : Compiled} (hc : compile source = .ok c)
    (hs : c.expression.Coherent) (I : Interpretation String) :
    ((∀ k ∈ c.constraints, k.holds I = true) ↔ ∀ d ∈ c.cnf, ¬ d.Clashes → d.eval I = true) ∧
    (c.expression.eval I = true → ∀ k ∈ c.constraints, k.holds I = true) ∧
    ((∀ d ∈ c.cnf, ¬ d.Clashes) → ((∀ k ∈ c.constraints, k.holds I = true) ↔ c.expression.eval I = true)) := by
  obtain ⟨e, -, rfl⟩ := compile_ok_iff.mp hc
  have he : e.Coherent := hs
  have hiff := he.forall_holds_iff I
  have hcnf : (∀ d ∈ e.toCnf, d.eval I = true) ↔ e.eval I = true := by
    rw [← Cnf.eval_iff, Expr.toCnf, Conversion.cnf, Cnf.eval_minimal, Expr.eval_found]
  refine ⟨hiff, ?_, ?_⟩
  · intro ht
    exact hiff.mpr fun d hd _ => hcnf.mpr ht d hd
  · intro hclash
    refine hiff.trans (Iff.trans ?_ hcnf)
    exact forall₂_congr fun d hd => ⟨fun h => h (hclash d hd), fun h _ => h⟩

theorem compile_constraints_of_coherent_two_clauses :
    let c : Compiled := .ofExpr (.and (.imp (.var "a") (.all "x" "X")) (.imp (.one "x" "X") (.var "b")))
    let I : Interpretation String := ⟨fun a => a == "p" || a == "a", fun s => if s == "X" then ["p", "q"] else []⟩
    compile "(a -> all x in X) & (one x in X -> b)" = .ok c ∧ c.expression.Coherent ∧ (∀ d ∈ c.cnf, ¬ d.Clashes) ∧
      ((∀ k ∈ c.constraints, k.holds I = true) ↔ c.expression.eval I = true) := by
  intro c I
  have hc : compile "(a -> all x in X) & (one x in X -> b)" = .ok c := compile_ok_iff.mpr ⟨_, by decide +kernel, rfl⟩
  have hs : c.expression.Coherent := ⟨by decide, by decide +kernel⟩
  have hclash : ∀ d ∈ c.cnf, ¬ d.Clashes := by decide +kernel
  exact ⟨hc, hs, hclash, (compile_constraints_of_coherent hc hs I).2.2 hclash⟩

/-- One pair is gone through for two literals of a clause, and the constraint is `x - x ≥ 0`. -/
theorem compile_constraints_clash :
    let c : Compiled := .ofExpr (.imp (.one "x" "X") (.all "x" "X"))
    let I : Interpretation String := ⟨fun a => a == "p", fun s => if s == "X" then ["p", "q"] else []⟩
    compile "one x in X -> all x in X" = .ok c ∧ c.expression.Coherent ∧
      (∀ k ∈ c.constraints, k.holds I = true) ∧ c.expression.eval I = false := by
  intro c I
  have hc : compile "one x in X -> all x in X" = .ok c := compile_ok_iff.mpr ⟨_, by decide +kernel, rfl⟩
  have hs : c.expression.Coherent := ⟨by decide, by decide +kernel⟩
  exact ⟨hc, hs, by decide +kernel, by decide⟩

end PseudoBoolean
