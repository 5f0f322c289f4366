import PseudoBoolean.Constraint.Check
import Mathlib.Algebra.Order.BigOperators.Group.List
import Mathlib.Algebra.Order.Ring.Nat
import Mathlib.Algebra.Ring.Int.Defs

/-!
The inequality of a constraint over the integers, and what 64-bit numbers make of it. They give the same answer as long
as they can hold what the sum has to reach; if that lies below all of them, the inequality is true of every reading,
but it is found false, or no answer is found.
-/

namespace PseudoBoolean

variable {α β : Type}

theorem word_eq_self {n : Int} (hlow : -2 ^ 63 ≤ n) (hhigh : n < 2 ^ 63) : word n = n :=
  Int.bmod_eq_of_le (by omega) (by omega)

theorem word_of_lt {n : Int} (hlow : -2 ^ 64 ≤ n) (hhigh : n < -2 ^ 63) : word n = n + 2 ^ 64 := by
  have hword : word (n + 2 ^ 64) = word n := Int.add_bmod_right n 18446744073709551616
  rw [← hword, word_eq_self (by omega) (by omega)]

namespace Overflow

theorem fit_eq_some (o : Overflow) {n : Int} (hlow : -2 ^ 63 ≤ n) (hhigh : n < 2 ^ 63) : o.fit n = some n := by
  cases o with
  | wraps => rw [fit, word_eq_self hlow hhigh]
  | stops => exact if_pos (by omega)

theorem foldlM_fit (o : Overflow) {f : β → Int} {c : β → Nat} (hf : ∀ b, c b < 2 ^ 63 → f b = c b) {l : List β}
    {n : Nat} (h : n + (l.map c).sum < 2 ^ 63) :
    l.foldlM (fun n b => o.fit (n + f b)) (n : Int) = some ((n + (l.map c).sum : Nat) : Int) := by
  induction l generalizing n with
  | nil => rfl
  | cons b l ih =>
    rw [List.map_cons, List.sum_cons] at h ⊢
    have hstep : o.fit (n + f b) = some ((n + c b : Nat) : Int) := by
      rw [hf b (by omega), ← Nat.cast_add]
      exact o.fit_eq_some (by omega) (by omega)
    rw [List.foldlM_cons, hstep, ← Nat.add_assoc]
    exact ih (by omega)

theorem sum_eq_some (o : Overflow) {f : β → Int} {c : β → Nat} (hf : ∀ b, c b < 2 ^ 63 → f b = c b) {l : List β}
    (h : (l.map c).sum < 2 ^ 63) : o.sum f l = some ((l.map c).sum : Int) := by
  have hfold := o.foldlM_fit hf (l := l) (n := 0) (by omega)
  rwa [Nat.zero_add] at hfold

end Overflow

theorem sum_map_toNat (v : α → Bool) (l : List α) : (l.map fun a => (v a).toNat).sum = l.countP v := by
  induction l with
  | nil => rfl
  | cons a l ih =>
    rw [List.map_cons, List.sum_cons, ih, List.countP_cons]
    cases v a <;> simp [Nat.add_comm]

theorem truth_eq_toNat (b : Bool) : truth b = b.toNat := by
  cases b <;> rfl

namespace Overflow

theorem sum_truth (o : Overflow) (v : α → Bool) {l : List α} (h : l.length < 2 ^ 63) :
    o.sum (fun a => truth (v a)) l = some (l.countP v : Int) := by
  have hle := List.countP_le_length (p := v) (l := l)
  rw [← sum_map_toNat] at hle ⊢
  exact o.sum_eq_some (fun a _ => truth_eq_toNat (v a)) (Nat.lt_of_le_of_lt hle h)

theorem sum_word (o : Overflow) (c : β → Nat) {l : List β} (h : (l.map c).sum < 2 ^ 63) :
    o.sum (fun b => word (c b)) l = some ((l.map c).sum : Int) := by
  apply o.sum_eq_some _ h
  intro b hb
  exact word_eq_self (by omega) (by omega)

end Overflow

namespace Constraint

variable [Ordered α]

def demand (k : Constraint α) (I : Interpretation α) : Int :=
  k.bound.constant - ((k.bound.minusCardinalities.map fun r => (I.members r.set).length).sum : Int)

def reach (k : Constraint α) (I : Interpretation α) (v : α → Bool) : Int :=
  (k.sum.plus.countP v : Int) + ((k.sum.plusSets.map fun r => (I.members r.set).countP I.value).sum : Int) -
    (k.sum.minus.countP v : Int) - ((k.sum.minusSets.map fun r => (I.members r.set).countP I.value).sum : Int)

def IsTrueFor (k : Constraint α) (I : Interpretation α) (v : α → Bool) : Prop := k.demand I ≤ k.reach I v

instance (k : Constraint α) (I : Interpretation α) (v : α → Bool) : Decidable (k.IsTrueFor I v) :=
  inferInstanceAs (Decidable (_ ≤ _))

/-- The constant is a 64-bit number, and fewer than 2⁶³ terms are counted. -/
structure Sized (k : Constraint α) (I : Interpretation α) : Prop where
  low : -2 ^ 63 ≤ k.bound.constant
  high : k.bound.constant < 2 ^ 63
  terms : k.sum.plus.length + k.sum.minus.length + ((k.sum.plusSets ++ k.sum.minusSets ++
    k.bound.minusCardinalities).map fun r => (I.members r.set).length).sum < 2 ^ 63

omit [Ordered α] in
theorem sum_countP_le_sum_length (I : Interpretation α) (l : List (Range α)) :
    (l.map fun r => (I.members r.set).countP I.value).sum ≤ (l.map fun r => (I.members r.set).length).sum :=
  List.sum_le_sum fun _ _ => List.countP_le_length

namespace Sized

variable {k : Constraint α} {I : Interpretation α} (h : k.Sized I)

include h

theorem terms_lt : k.sum.plus.length + k.sum.minus.length + (k.sum.plusSets.map fun r => (I.members r.set).length).sum +
    (k.sum.minusSets.map fun r => (I.members r.set).length).sum +
    (k.bound.minusCardinalities.map fun r => (I.members r.set).length).sum < 2 ^ 63 := by
  have hterms := h.terms
  simp only [List.map_append, List.sum_append] at hterms
  omega

theorem evaluate_bound (o : Overflow) : k.bound.evaluate o I = o.fit (k.demand I) := by
  have hterms := h.terms_lt
  have hcards : (k.bound.minusCardinalities.map fun r => I.cardinality r.set).sum < 2 ^ 63 := by
    unfold Interpretation.cardinality
    omega
  rw [Bound.evaluate, o.sum_word (fun r : Range α => I.cardinality r.set) hcards]
  rfl

/-- The sum stays on this side of what remains when an overflow of the bound has wrapped around. -/
theorem reach_lt (v : α → Bool) : k.reach I v < k.demand I + 2 ^ 64 := by
  have hlow := h.low
  have hterms := h.terms_lt
  have hplus := List.countP_le_length (p := v) (l := k.sum.plus)
  have hsets := sum_countP_le_sum_length I k.sum.plusSets
  unfold reach demand
  omega

theorem evaluate_sum (o : Overflow) (v : α → Bool) : k.sum.evaluate o I v = some (k.reach I v) := by
  have hterms := h.terms_lt
  have hplus := List.countP_le_length (p := v) (l := k.sum.plus)
  have hminus := List.countP_le_length (p := v) (l := k.sum.minus)
  have hcount (l : List (Range α)) : (l.map fun r => I.trueCount r.set).sum ≤ _ := sum_countP_le_sum_length I l
  have hplusSets := hcount k.sum.plusSets
  have hminusSets := hcount k.sum.minusSets
  simp only [LinearSum.evaluate, Option.bind_eq_bind]
  rw [o.sum_truth v (by omega), Option.bind_some,
    o.sum_word (fun r : Range α => I.trueCount r.set) (l := k.sum.plusSets) (by omega), Option.bind_some,
    o.fit_eq_some (by omega) (by omega), Option.bind_some, o.sum_truth v (by omega), Option.bind_some,
    o.fit_eq_some (by omega) (by omega), Option.bind_some,
    o.sum_word (fun r : Range α => I.trueCount r.set) (l := k.sum.minusSets) (by omega), Option.bind_some,
    o.fit_eq_some (by omega) (by omega)]
  rfl

theorem inequality_eq (o : Overflow) (v : α → Bool) :
    k.inequality o I v = (o.fit (k.demand I)).map fun bound => decide (bound ≤ k.reach I v) := by
  rw [inequality, h.evaluate_sum, h.evaluate_bound]
  cases o.fit (k.demand I) <;> rfl

theorem demand_lt : k.demand I < 2 ^ 63 := by
  have hhigh := h.high
  unfold demand
  omega

theorem inequality_eq_isTrueFor (o : Overflow) (hdemand : -2 ^ 63 ≤ k.demand I) (v : α → Bool) :
    k.inequality o I v = some (decide (k.IsTrueFor I v)) := by
  rw [h.inequality_eq, o.fit_eq_some hdemand h.demand_lt]
  rfl

theorem isTrueFor_of_demand_lt (hdemand : k.demand I < -2 ^ 63) (v : α → Bool) : k.IsTrueFor I v := by
  have hterms := h.terms_lt
  have hminus := List.countP_le_length (p := v) (l := k.sum.minus)
  have hminusSets := sum_countP_le_sum_length I k.sum.minusSets
  unfold IsTrueFor reach
  omega

theorem inequality_stops (hdemand : k.demand I < -2 ^ 63) (v : α → Bool) : k.inequality .stops I v = none := by
  have hfit : Overflow.stops.fit (k.demand I) = none := if_neg (by omega)
  rw [h.inequality_eq, hfit]
  rfl

theorem inequality_wraps (hdemand : k.demand I < -2 ^ 63) (v : α → Bool) :
    k.inequality .wraps I v = some false := by
  have hlow := h.low
  have hterms := h.terms_lt
  have hword : word (k.demand I) = k.demand I + 2 ^ 64 := word_of_lt (by unfold demand; omega) hdemand
  have hreach := h.reach_lt v
  rw [h.inequality_eq, Overflow.fit, Option.map_some, hword, decide_eq_false (by omega)]

end Sized

end Constraint

end PseudoBoolean
