import PseudoBoolean.Constraint.Holds
import Mathlib.Data.List.Basic

/-!
The inequality of a clause under one binding of its names. Each literal raises the difference of the two
sides by its `gain`, which is positive if the literal is true and zero if it is false; the empty clause
starts at minus one.
-/

namespace PseudoBoolean

variable {α : Type}

namespace Literal

def evalAt (I : Interpretation α) (binding : α → α) (l : Literal α) : Bool :=
  match l.positive, l.atom with
  | true, .plain a => I.value (binding a)
  | false, .plain a => !I.value (binding a)
  | true, .one r => (I.members r.set).any I.value
  | false, .one r => !I.value (binding r.element)
  | true, .all r => I.value (binding r.element)
  | false, .all r => (I.members r.set).any fun a => !I.value a

def gain (I : Interpretation α) (binding : α → α) (l : Literal α) : Int :=
  match l.positive, l.atom with
  | true, .plain a => truth (I.value (binding a))
  | false, .plain a => 1 - truth (I.value (binding a))
  | true, .one r => I.trueCount r.set
  | false, .one r => 1 - truth (I.value (binding r.element))
  | true, .all r => truth (I.value (binding r.element))
  | false, .all r => I.cardinality r.set - I.trueCount r.set

theorem gain_nonneg (I : Interpretation α) (binding : α → α) (l : Literal α) : 0 ≤ l.gain I binding := by
  rcases l with ⟨_ | _, a | r | r⟩ <;> simp only [gain, truth]
  case false.all =>
    have h : I.trueCount r.set ≤ I.cardinality r.set := List.countP_le_length
    omega
  case true.one => exact Int.natCast_nonneg _
  all_goals split <;> decide

theorem gain_pos_iff (I : Interpretation α) (binding : α → α) (l : Literal α) :
    0 < l.gain I binding ↔ l.evalAt I binding = true := by
  rcases l with ⟨_ | _, a | r | r⟩ <;> simp only [gain, evalAt]
  case true.one => simp [Interpretation.trueCount, List.countP_pos_iff]
  case false.all =>
    have hle : I.trueCount r.set ≤ I.cardinality r.set := List.countP_le_length
    have heq : I.trueCount r.set = I.cardinality r.set ↔ ∀ a ∈ I.members r.set, I.value a = true :=
      List.countP_eq_length
    simp only [List.any_eq_true, Bool.not_eq_true']
    constructor
    · intro h
      by_contra hne
      have hall : ∀ a ∈ I.members r.set, I.value a = true := by
        intro a ha
        by_contra hf
        exact hne ⟨a, ha, Bool.not_eq_true _ ▸ hf⟩
      have := heq.mpr hall
      omega
    · rintro ⟨a, ha, hf⟩
      have hne : I.trueCount r.set ≠ I.cardinality r.set := by
        intro h
        simp [heq.mp h a ha] at hf
      omega
  all_goals cases I.value (binding _) <;> decide

end Literal

theorem total_nonneg {β : Type} {f : β → Int} (hf : ∀ b, 0 ≤ f b) (l : List β) : 0 ≤ total f l := by
  induction l with
  | nil => exact Int.le_refl 0
  | cons b l ih =>
    have hb := hf b
    rw [total_cons]
    omega

theorem total_pos_iff {β : Type} {f : β → Int} (hf : ∀ b, 0 ≤ f b) (l : List β) :
    0 < total f l ↔ ∃ b ∈ l, 0 < f b := by
  induction l with
  | nil => simp
  | cons b l ih =>
    have hb := hf b
    have hl := total_nonneg hf l
    rw [total_cons, List.exists_mem_cons_iff, ← ih]
    omega

namespace Constraint

variable [Ordered α]

def slack (I : Interpretation α) (binding : α → α) (k : Constraint α) : Int :=
  k.sum.value I binding - k.bound.value I

theorem holdsAt_iff_slack (I : Interpretation α) (binding : α → α) (k : Constraint α) :
    k.holdsAt I binding = true ↔ 0 ≤ k.slack I binding := by
  rw [holdsAt, decide_eq_true_eq, slack, Int.sub_nonneg]

theorem slack_addLiteral (I : Interpretation α) (binding : α → α) (k : Constraint α) (l : Literal α) :
    (k.addLiteral l).slack I binding = k.slack I binding + l.gain I binding := by
  rcases l with ⟨_ | _, a | r | r⟩ <;>
    simp only [addLiteral, slack, LinearSum.value, Bound.value, Literal.gain, total_append, total_cons, total_nil] <;>
    omega

theorem slack_foldl (I : Interpretation α) (binding : α → α) (ls : List (Literal α)) (k : Constraint α) :
    (ls.foldl addLiteral k).slack I binding = k.slack I binding + total (Literal.gain I binding) ls := by
  induction ls generalizing k with
  | nil => simp
  | cons l ls ih => rw [List.foldl_cons, ih, slack_addLiteral, total_cons, Int.add_assoc]

theorem slack_ofClause (I : Interpretation α) (binding : α → α) (c : Clause α) :
    (ofClause c).slack I binding = total (Literal.gain I binding) c.toList - 1 := by
  rw [ofClause, slack_foldl]
  have h : (unsatisfiable : Constraint α).slack I binding = -1 := rfl
  omega

theorem holdsAt_ofClause (I : Interpretation α) (binding : α → α) (c : Clause α) :
    (ofClause c).holdsAt I binding = true ↔ ∃ l ∈ c, l.evalAt I binding = true := by
  rw [holdsAt_iff_slack, slack_ofClause]
  have hiff := total_pos_iff (Literal.gain_nonneg I binding) c.toList
  simp only [Literal.gain_pos_iff, ← OrderedSet.mem_def] at hiff
  rw [← hiff]
  omega

end Constraint

end PseudoBoolean
